import Mathlib.Data.List.Forall2

/-! Lists of results. To collect one is to take all of its values, or to stop at the first error. -/

namespace BinAtlas

variable {ε α : Type}

theorem mapM_id_map_ok (l : List α) : (l.map .ok).mapM id = (.ok l : Except ε (List α)) := by
  rw [List.mapM_map]
  exact List.mapM_pure.trans (congrArg Except.ok l.map_id')

theorem mapM_id_append_error (as : List α) (e : ε) (rest : List (Except ε α)) :
    ((as.map .ok ++ .error e :: rest : List (Except ε α)).mapM id) = .error e := by
  rw [List.mapM_append, mapM_id_map_ok, List.mapM_cons]
  rfl

theorem exists_map_ok {β : Type} {F : α → Except ε β} {R : α → β → Prop} {l : List α}
    (h : ∀ a ∈ l, ∃ b, F a = .ok b ∧ R a b) : ∃ bs, List.Forall₂ R l bs ∧ l.map F = bs.map .ok := by
  induction l with
  | nil => exact ⟨[], .nil, rfl⟩
  | cons a as ih =>
    obtain ⟨⟨b, hb, hab⟩, hrest⟩ := List.forall_mem_cons.1 h
    obtain ⟨bs, hbs, heq⟩ := ih hrest
    exact ⟨b :: bs, .cons hab hbs, by rw [List.map_cons, List.map_cons, hb, heq]⟩

/-- A list of results has values alone, or values up to a first error. -/
theorem exists_map_ok_or_append (l : List (Except ε α)) :
    (∃ as : List α, l = as.map .ok) ∨ ∃ (as : List α) (e : ε) (rest : List (Except ε α)),
      l = as.map .ok ++ .error e :: rest := by
  induction l with
  | nil => exact .inl ⟨[], rfl⟩
  | cons r rs ih =>
    cases r with
    | error e => exact .inr ⟨[], e, rs, rfl⟩
    | ok a =>
      rcases ih with ⟨as, rfl⟩ | ⟨as, e, rest, rfl⟩
      · exact .inl ⟨a :: as, rfl⟩
      · exact .inr ⟨a :: as, e, rest, rfl⟩

theorem exists_map_ok_or_error (l : List (Except ε α)) : (∃ as : List α, l = as.map .ok) ∨ ∃ e, .error e ∈ l := by
  rcases exists_map_ok_or_append l with h | ⟨as, e, rest, rfl⟩
  · exact .inl h
  · exact .inr ⟨e, List.mem_append_right _ List.mem_cons_self⟩

theorem mapM_id_of_mem_error {l : List (Except ε α)} {e : ε} (h : .error e ∈ l) : ∃ e', l.mapM id = .error e' := by
  rcases exists_map_ok_or_append l with ⟨as, rfl⟩ | ⟨as, e', rest, rfl⟩
  · obtain ⟨a, -, ha⟩ := List.mem_map.1 h
    cases ha
  · exact ⟨e', mapM_id_append_error as e' rest⟩

/-- The errors of a list without its values. -/
def errors (l : List (Except ε α)) : List ε :=
  l.filterMap fun r =>
    match r with
    | .error e => some e
    | .ok _ => none

@[simp]
theorem errors_cons_ok (a : α) (l : List (Except ε α)) : errors (.ok a :: l) = errors l := rfl

@[simp]
theorem errors_cons_error (e : ε) (l : List (Except ε α)) : errors (.error e :: l) = e :: errors l := rfl

theorem errors_map_ok_append (as : List α) (l : List (Except ε α)) : errors (as.map .ok ++ l) = errors l := by
  induction as with
  | nil => rfl
  | cons a as ih => exact ih

/-- To collect a list without errors is to take all of it. -/
theorem exists_map_ok_of_errors {l : List (Except ε α)} (h : errors l = []) : ∃ as : List α, l = as.map .ok := by
  rcases exists_map_ok_or_append l with hok | ⟨as, e, rest, rfl⟩
  · exact hok
  · rw [errors_map_ok_append] at h
    cases h

theorem mapM_id_of_errors {l : List (Except ε α)} {e : ε} {es : List ε} (h : errors l = e :: es) :
    l.mapM id = .error e := by
  rcases exists_map_ok_or_append l with ⟨as, rfl⟩ | ⟨as, e', rest, rfl⟩
  · rw [← List.append_nil (as.map _), errors_map_ok_append] at h
    cases h
  · rw [errors_map_ok_append, errors_cons_error] at h
    rw [mapM_id_append_error, (List.cons.inj h).1]

end BinAtlas
