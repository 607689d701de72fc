import AccessGate.Digest.Credential

/-!
# The keys of the cache

All entries of the cache share one map from texts. The marker of an unknown credential stands under
the credential's digest, a principal under the digest, a colon and the scope. A digest has
sixty-four digits, so it ends where the scope begins whatever the scope is: keys with scopes agree
only when digests and scopes do (`Cache.scopedKey_inj`), a key with a scope is no digest
(`Cache.scopedKey_ne_credentialDigest`), and the keys that `Cache.isKeyOf` picks out for a
credential are those of its digest (`Cache.isKeyOf_scopedKey`).
-/

namespace AccessGate

/-- A digest has sixty-four digits. -/
theorem length_credentialDigest (credential : String) : (credentialDigest credential).length = 64 :=
  Sha256.length_hex _

namespace Cache

/-- The key of a principal. -/
def scopedKey (digest scope : String) : String := digest ++ ":" ++ scope

/-- Whether a key belongs to a digest: it is the digest, or has a scope after it. -/
def isKeyOf (digest key : String) : Bool :=
  key == digest || (digest ++ ":").toList.isPrefixOf key.toList

/-- A scoped key is the digest and the scope with a separator between them. -/
theorem toList_scopedKey (digest scope : String) :
    (scopedKey digest scope).toList = digest.toList ++ ':' :: scope.toList := by
  simp [scopedKey, String.toList_append]

/-- Keys with scopes agree only when the digests and the scopes do. -/
theorem scopedKey_inj {c c' s s' : String}
    (h : scopedKey (credentialDigest c) s = scopedKey (credentialDigest c') s') :
    credentialDigest c = credentialDigest c' ∧ s = s' := by
  have hl := congrArg String.toList h
  rw [toList_scopedKey, toList_scopedKey] at hl
  have hlen : (credentialDigest c).toList.length = (credentialDigest c').toList.length := by
    rw [String.length_toList, String.length_toList, length_credentialDigest,
      length_credentialDigest]
  obtain ⟨hd, hs⟩ := List.append_inj hl hlen
  exact ⟨String.toList_inj.1 hd, String.toList_inj.1 (List.cons.inj hs).2⟩

/-- A key with a scope is longer than any digest. -/
theorem scopedKey_ne_credentialDigest (c c' s : String) :
    scopedKey (credentialDigest c) s ≠ credentialDigest c' := by
  intro h
  have hl := congrArg (fun t => t.toList.length) h
  simp only [toList_scopedKey, List.length_append, List.length_cons, String.length_toList,
    length_credentialDigest] at hl
  omega

/-- The keys of a digest are itself and those that have a scope after it. -/
theorem isKeyOf_iff {digest key : String} :
    isKeyOf digest key = true ↔ key = digest ∨ ∃ scope, key = scopedKey digest scope := by
  rw [isKeyOf, Bool.or_eq_true, beq_iff_eq, List.isPrefixOf_iff_prefix]
  refine or_congr_right ⟨fun ⟨rest, hr⟩ => ⟨String.ofList rest, ?_⟩, fun ⟨scope, h⟩ => ?_⟩
  · apply String.toList_inj.1
    rw [← hr, toList_scopedKey]
    simp [String.toList_append]
  · refine ⟨scope.toList, ?_⟩
    rw [h, toList_scopedKey]
    simp [String.toList_append]

/-- The keys with a scope that belong to a digest are those that begin with it. -/
theorem isKeyOf_scopedKey (c c' s : String) :
    isKeyOf (credentialDigest c) (scopedKey (credentialDigest c') s) = true ↔
      credentialDigest c = credentialDigest c' := by
  rw [isKeyOf_iff]
  constructor
  · rintro (h | ⟨scope, h⟩)
    · exact absurd h (scopedKey_ne_credentialDigest c' c s)
    · exact (scopedKey_inj h).1.symm
  · exact fun h => .inr ⟨s, by rw [h]⟩

/-- The only digest that belongs to a digest is itself. -/
theorem isKeyOf_credentialDigest (c c' : String) :
    isKeyOf (credentialDigest c) (credentialDigest c') = true ↔
      credentialDigest c = credentialDigest c' := by
  rw [isKeyOf_iff]
  constructor
  · rintro (h | ⟨scope, h⟩)
    · exact h.symm
    · exact absurd h.symm (scopedKey_ne_credentialDigest c c' scope)
  · exact fun h => .inl h.symm

end Cache

end AccessGate
