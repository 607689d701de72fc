import AccessGate.Table
import AccessGate.Validator.Basic

/-!
# Validation from a table of tokens

A `TokenTable` answers at once and by itself. A token past its end is refused, as is a credential
that is no token.
-/

namespace AccessGate

/-- Whose a token is and what it grants. -/
structure Token where
  principalId : String
  service : Option String := none
  permissions : List String := []
  /-- The end of the token's life. -/
  expiresAt : Option Timestamp := none
deriving DecidableEq, Repr

/-- Tokens by credential. -/
structure TokenTable where
  tokens : Table String Token := .empty

namespace TokenTable

/-- The address in errors. -/
def endpoint : String := "static"

/-- Puts a token in place of the credential's old one. -/
def add (t : TokenTable) (credential : String) (token : Token) : TokenTable :=
  ⟨t.tokens.insert credential token⟩

/-- Lets a token vouch for a service; a credential without one stays without. -/
def withService (t : TokenTable) (credential service : String) : TokenTable :=
  match t.tokens.get? credential with
  | some token => t.add credential { token with service := some service }
  | none => t

/-- Takes a token away. -/
def revoke (t : TokenTable) (credential : String) : TokenTable := ⟨t.tokens.erase credential⟩

/-- What the table says about a credential. -/
def answer (t : TokenTable) (credential : String) (now : Timestamp) : ValidationReply :=
  match t.tokens.get? credential with
  | none => .rejected "unknown credential"
  | some token =>
    if token.expiresAt.any now.reached then .rejected "credential expired"
    else {
      valid := true
      principalId := some token.principalId
      service := token.service
      permissions := token.permissions
      expiresAt := token.expiresAt.map Timestamp.seconds }

/-- The table as a validator. -/
def validator : Validator TokenTable where
  endpoint := endpoint
  validate t credential now := (.now (.ok (t.answer credential now.wall)), t)
  ping t _ := (.now (.ok ()), t)

end TokenTable

end AccessGate
