import Mathlib

namespace HashChain

/-!
# Numbered hash chains

A chain is a list of entries that number themselves consecutively and name the
hash of their predecessor, the first one naming a base. The recursive form
follows a validator that walks the list from its head; the indexed form is
what a reader expects; appending at the end extends either.
-/

universe u v

variable {Entry : Type u} {Hash : Type v}
  (number : Entry → Nat) (parent own : Entry → Hash)

/-- The entries continue a chain at number `next` whose last hash is `tip`. -/
def Continues : Nat → Hash → List Entry → Prop
  | _, _, [] => True
  | next, tip, entry :: rest =>
    number entry = next ∧ parent entry = tip ∧ Continues (next + 1) (own entry) rest

/-- The last hash of a chain, or its base. -/
def tip (base : Hash) (entries : List Entry) : Hash :=
  match entries.getLast? with
  | some last => own last
  | none => base

variable {number parent own}

theorem tip_cons (base : Hash) (entry : Entry) (rest : List Entry) :
    tip own base (entry :: rest) = tip own (own entry) rest := by
  cases rest with
  | nil =>
      rfl
  | cons second rest =>
      have last : (second :: rest).getLast? = some ((second :: rest).getLast (by simp)) :=
        List.getLast?_eq_getLast_of_ne_nil (by simp)
      rw [tip, tip, List.getLast?_cons_cons, last]

variable {entries : List Entry} {base : Hash} {next : Nat}

theorem Continues.snoc
    {entry : Entry}
    (chain : Continues number parent own next base entries)
    (numbered : number entry = next + entries.length)
    (linked : parent entry = tip own base entries) :
    Continues number parent own next base (entries ++ [entry]) := by
  induction entries generalizing next base with
  | nil =>
      exact ⟨by simpa using numbered, by simpa [tip] using linked, trivial⟩
  | cons head rest ih =>
      obtain ⟨headNumbered, headLinked, continued⟩ := chain
      refine ⟨headNumbered, headLinked, ih continued ?_ ?_⟩
      · rw [numbered, List.length_cons]
        omega
      · rw [linked, tip_cons]

theorem Continues.number_get
    (chain : Continues number parent own next base entries)
    (index : Nat)
    (bound : index < entries.length) :
    number entries[index] = next + index := by
  induction entries generalizing next base index with
  | nil =>
      cases bound
  | cons head rest ih =>
      obtain ⟨headNumbered, _, continued⟩ := chain
      cases index with
      | zero =>
          simpa using headNumbered
      | succ index =>
          have later := ih continued index (by simpa using bound)
          simp only [List.getElem_cons_succ, later]
          omega

theorem Continues.parent_first
    (chain : Continues number parent own next base entries)
    (bound : 0 < entries.length) :
    parent entries[0] = base := by
  cases entries with
  | nil =>
      cases bound
  | cons head rest =>
      exact chain.2.1

theorem Continues.parent_get
    (chain : Continues number parent own next base entries)
    (index : Nat)
    (bound : index + 1 < entries.length) :
    parent entries[index + 1] = own entries[index] := by
  induction entries generalizing next base index with
  | nil =>
      cases bound
  | cons head rest ih =>
      have continued := chain.2.2
      cases index with
      | zero =>
          exact continued.parent_first (by simpa using bound)
      | succ index =>
          exact ih continued index (by simpa using bound)

end HashChain
