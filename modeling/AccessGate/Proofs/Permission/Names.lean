import AccessGate.Proofs.Permission.Order

/-!
# Implication keeps names well formed

What a well-formed name implies is made of the domain, of the scope that the name is bound to, and
of plain words. So whatever a well-formed name reaches is well formed too
(`Domain.IsName.of_reaches`).
-/

namespace AccessGate

open Text (segments)

namespace Domain

variable {d : Domain} {name next last : String}

/-- The actions that an action implies are plain. -/
theorem isPlain_of_mem_boundImplies {action word : String} (h : word ∈ boundImplies action) :
    IsPlain word := by
  have hwords : ∀ word ∈ boundImplies "admin", word ≠ "" ∧ '*' ∉ word.toList := by decide
  exact hwords word (mem_boundImplies_admin h)

/-- A name implies names. -/
theorem IsName.of_mem_implications (h : d.IsName name) (hnext : next ∈ d.implications name) :
    d.IsName next := by
  obtain ⟨hplain, hd⟩ := h.plain_domain
  rcases implications_cases hnext with ⟨scope, action, word, hbound, hword, rfl⟩ | ⟨-, s, -, -, rfl⟩
  · have hsegments := bound?_eq_some_iff.1 hbound
    obtain ⟨-, hscope, -, -⟩ := eq_boundName_of_bound? hbound
    -- The scope stays where it is, and only a last segment can be a star.
    have hscopePlain : IsPlain scope :=
      ⟨h.nonempty scope (by simp [hsegments]), h.star_free scope (by simp [hsegments])⟩
    obtain ⟨hne, hstar⟩ := isPlain_of_mem_boundImplies hword
    exact isName_boundName hd hplain .scope hscope hscopePlain (not_mem_of_mem_boundImplies hword)
      hne (.inl hstar)
  · exact isName_nameOf hd hplain s

/-- A name reaches names. -/
theorem IsName.of_reaches (h : d.IsName name) (hreach : d.Reaches name last) : d.IsName last := by
  induction hreach with
  | step hnext => exact h.of_mem_implications hnext
  | trans hnext _ ih => exact ih (h.of_mem_implications hnext)

/-- What a name implies is a name. -/
theorem IsName.of_mem_impliedBy (h : d.IsName name) (hlast : last ∈ d.impliedBy name) :
    d.IsName last :=
  h.of_reaches (mem_impliedBy.1 hlast).2

end Domain

end AccessGate
