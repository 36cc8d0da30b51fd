import Mathlib

namespace FallibleProgram

/-!
# Computations that may fail

What a computation that has succeeded says about its parts: the two sides of a
bind, each step of a loop, and each item of a list that is mapped.
-/

variable {Failure α β State : Type}

/-- `if condition: raise reason`. -/
def raiseIf (condition : Bool) (reason : Failure) : Except Failure Unit :=
  if condition then .error reason else .ok ()

@[simp]
theorem raiseIf_eq_ok
    {condition : Bool}
    {reason : Failure}
    {result : Unit} :
    raiseIf condition reason = .ok result ↔ condition = false := by
  cases condition with
  | false =>
      simp [raiseIf]
  | true =>
      simp [raiseIf]

variable {result : β}

theorem bind_eq_ok
    {first : Except Failure α}
    {rest : α → Except Failure β} :
    (first >>= rest) = .ok result ↔ ∃ value, first = .ok value ∧ rest value = .ok result := by
  cases first with
  | error reason =>
      simp [bind, Except.bind]
  | ok value =>
      simp [bind, Except.bind]

theorem toOption_eq_some
    {result : Except Failure α}
    {value : α}
    (succeeded : result.toOption = some value) :
    result = .ok value := by
  cases result with
  | error reason =>
      cases succeeded
  | ok other =>
      cases succeeded
      rfl

variable {items : List α}

theorem foldlM_invariant
    {step : State → α → Except Failure State}
    (inv : State → Prop)
    (kept : ∀ state item next, inv state → step state item = .ok next → inv next)
    {state final : State}
    (finished : items.foldlM step state = .ok final)
    (initial : inv state) :
    inv final := by
  induction items generalizing state with
  | nil =>
      cases finished
      exact initial
  | cons item rest ih =>
      rw [List.foldlM_cons] at finished
      obtain ⟨next, stepped, later⟩ := bind_eq_ok.mp finished
      exact ih later (kept state item next initial stepped)

variable {values : List β} {stored : List α}

theorem mapM_eq_some_iff
    {read : α → Option β} :
    stored.mapM read = some values ↔ List.Forall₂ (fun a b => read a = some b) stored values := by
  induction stored generalizing values with
  | nil =>
      simp [eq_comm]
  | cons head rest ih =>
      simp only [List.mapM_cons, Option.bind_eq_bind, Option.bind_eq_some_iff, Option.pure_def,
        Option.some.injEq, List.forall₂_cons_left_iff]
      constructor
      · rintro ⟨first, readFirst, later, readLater, rfl⟩
        exact ⟨first, later, readFirst, ih.mp readLater, rfl⟩
      · rintro ⟨first, later, readFirst, readLater, rfl⟩
        exact ⟨first, readFirst, later, ih.mpr readLater, rfl⟩

theorem map_eq_of_mapM
    {γ : Type}
    {read : α → Option β}
    {before : α → γ}
    {after : β → γ}
    (mapped : stored.mapM read = some values)
    (agrees : ∀ item value, read item = some value → before item = after value) :
    stored.map before = values.map after := by
  have pairs := mapM_eq_some_iff.mp mapped
  induction pairs with
  | nil =>
      rfl
  | cons first _ ih =>
      rename_i rest
      rw [List.map_cons, List.map_cons, agrees _ _ first,
        ih (mapM_eq_some_iff.mpr rest)]

theorem source_of_mapM
    {read : α → Option β}
    (mapped : stored.mapM read = some values)
    {value : β}
    (member : value ∈ values) :
    ∃ item ∈ stored, read item = some value := by
  have pairs := mapM_eq_some_iff.mp mapped
  clear mapped
  induction pairs with
  | nil =>
      cases member
  | cons first _ ih =>
      rcases List.mem_cons.mp member with here | there
      · exact ⟨_, List.mem_cons_self, here ▸ first⟩
      · obtain ⟨item, inStored, found⟩ := ih there
        exact ⟨item, List.mem_cons_of_mem _ inStored, found⟩

theorem mapM_eq_ok
    {change : α → Except Failure β}
    {value : α → β}
    (changed : ∀ item ∈ items, change item = .ok (value item)) :
    items.mapM change = .ok (items.map value) := by
  induction items with
  | nil =>
      rfl
  | cons first rest ih =>
      have tail := ih fun item member =>
        changed item (List.mem_cons_of_mem _ member)
      rw [List.mapM_cons, changed first List.mem_cons_self, tail]
      rfl

variable {results : List β}

theorem mapM_mem
    {change : α → Except Failure β}
    (mapped : items.mapM change = .ok results)
    {item : α}
    (member : item ∈ items) :
    ∃ result ∈ results, change item = .ok result := by
  induction items generalizing results with
  | nil =>
      cases member
  | cons first rest ih =>
      rw [List.mapM_cons] at mapped
      obtain ⟨head, changed, mapped⟩ := bind_eq_ok.mp mapped
      obtain ⟨tail, others, same⟩ := bind_eq_ok.mp mapped
      cases same
      rcases List.mem_cons.mp member with rfl | later
      · exact ⟨head, List.mem_cons_self, changed⟩
      · obtain ⟨result, inTail, found⟩ := ih others later
        exact ⟨result, List.mem_cons_of_mem head inTail, found⟩

theorem mapM_source
    {change : α → Except Failure β}
    (mapped : items.mapM change = .ok results)
    (member : result ∈ results) :
    ∃ item ∈ items, change item = .ok result := by
  induction items generalizing results with
  | nil =>
      cases mapped
      cases member
  | cons first rest ih =>
      rw [List.mapM_cons] at mapped
      obtain ⟨head, changed, mapped⟩ := bind_eq_ok.mp mapped
      obtain ⟨tail, others, same⟩ := bind_eq_ok.mp mapped
      cases same
      rcases List.mem_cons.mp member with rfl | later
      · exact ⟨first, List.mem_cons_self, changed⟩
      · obtain ⟨item, inRest, found⟩ := ih others later
        exact ⟨item, List.mem_cons_of_mem first inRest, found⟩

end FallibleProgram
