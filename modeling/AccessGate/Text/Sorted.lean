/-!
# Sorted sets of texts

`Text.sortedSet` lists the distinct members of a list in ascending order, the order of code points.
It has the same members (`Text.mem_sortedSet`) and is strictly ascending
(`Text.sortedSet_pairwise`).
-/

namespace AccessGate.Text

/-- Puts a text into its place in an ascending list, unless it is there. -/
def insertSorted (x : String) : List String → List String
  | [] => [x]
  | y :: ys => if x = y then y :: ys else if x < y then x :: y :: ys else y :: insertSorted x ys

/-- The distinct members of a list, ascending. -/
def sortedSet (xs : List String) : List String := xs.foldr insertSorted []

/-- What is in a list with a text inserted is that text or was in it. -/
theorem mem_insertSorted {x z : String} {ys : List String} :
    z ∈ insertSorted x ys ↔ z = x ∨ z ∈ ys := by
  induction ys with
  | nil => simp [insertSorted]
  | cons y ys ih =>
    unfold insertSorted
    split
    · next h => subst h; simp
    · split
      · simp
      · simp only [List.mem_cons, ih]
        constructor
        · rintro (h | h | h) <;> simp [h]
        · rintro (h | h | h) <;> simp [h]

/-- Sorting keeps the members. -/
theorem mem_sortedSet {z : String} {xs : List String} : z ∈ sortedSet xs ↔ z ∈ xs := by
  induction xs with
  | nil => simp [sortedSet]
  | cons x xs ih =>
    rw [sortedSet, List.foldr_cons, mem_insertSorted, List.mem_cons, ← ih, sortedSet]

/-- Inserting keeps a list sorted. -/
theorem insertSorted_pairwise {x : String} {ys : List String} (h : ys.Pairwise (· < ·)) :
    (insertSorted x ys).Pairwise (· < ·) := by
  induction ys with
  | nil => simp [insertSorted]
  | cons y ys ih =>
    have ⟨hy, hys⟩ := List.pairwise_cons.1 h
    unfold insertSorted
    split
    · exact h
    · next hne =>
      split
      · next hlt =>
        refine List.pairwise_cons.2 ⟨fun z hz => ?_, h⟩
        rcases List.mem_cons.1 hz with rfl | hz
        · exact hlt
        · exact String.lt_trans hlt (hy z hz)
      · next hnlt =>
        refine List.pairwise_cons.2 ⟨fun z hz => ?_, ih hys⟩
        rcases mem_insertSorted.1 hz with rfl | hz
        · exact Decidable.by_contra fun hn =>
            hne (String.le_antisymm (String.not_lt.1 hn) (String.not_lt.1 hnlt))
        · exact hy z hz

/-- The members come in strictly ascending order. -/
theorem sortedSet_pairwise (xs : List String) : (sortedSet xs).Pairwise (· < ·) := by
  induction xs with
  | nil => simp [sortedSet]
  | cons x xs ih => exact insertSorted_pairwise ih

/-- A sorted set has no text twice. -/
theorem nodup_sortedSet (xs : List String) : (sortedSet xs).Nodup := by
  refine (sortedSet_pairwise xs).imp fun {a b} hlt heq => ?_
  rw [heq] at hlt
  exact String.lt_irrefl b hlt

end AccessGate.Text
