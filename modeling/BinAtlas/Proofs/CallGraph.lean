import BinAtlas.Proofs.Listing

/-! The call graph from both ends. The references of a body are listed head by head, and every head
is looked up once more; the callers of a function are found from the references that arrive. Where
items lie apart and functions have bodies that lie apart, both list the calls of the table, each as
often as it stands there. -/

namespace BinAtlas

/-- The results of a list without its errors. -/
def successes {ε α : Type} (l : List (Except ε α)) : List α := l.filterMap Except.toOption

@[simp]
theorem successes_cons_ok {ε α : Type} (a : α) (l : List (Except ε α)) : successes (.ok a :: l) = a :: successes l := rfl

@[simp]
theorem successes_cons_error {ε α : Type} (e : ε) (l : List (Except ε α)) : successes (.error e :: l) = successes l := rfl

/-- Near and far calls. -/
def Edge.isCall (e : Edge) : Bool := e.kind == 16 || e.kind == 17

def Reference.isCall (r : Reference) (source target : Address) : Bool :=
  r.kind == .codeCall && r.source == source && r.target == target

theorem Edge.isCall_iff (e : Edge) : e.isCall ↔ ReferenceKind.ofCode? e.kind = some .codeCall := by
  simp only [isCall, Bool.or_eq_true, beq_iff_eq, ← UInt8.toNat_inj]
  unfold ReferenceKind.ofCode?
  split <;> simp_all

/-- Classifying an edge fails, or keeps its ends; calls are those of the two codes. -/
theorem ofEdge_cases (e : Edge) :
    (∃ what, Reference.ofEdge e = .error what ∧ e.isCall = false) ∨
      ∃ r, Reference.ofEdge e = .ok r ∧ r.source = e.source ∧ r.target = e.target ∧
        (r.kind == .codeCall) = e.isCall := by
  unfold Reference.ofEdge
  cases hkind : ReferenceKind.ofCode? e.kind with
  | none =>
    refine .inl ⟨_, rfl, ?_⟩
    rw [Bool.eq_false_iff, ne_eq, e.isCall_iff, hkind]
    simp
  | some kind =>
    refine .inr ⟨_, rfl, rfl, rfl, ?_⟩
    rw [Bool.eq_iff_iff, e.isCall_iff, hkind]
    simp

theorem isCall_ofEdge (e : Edge) (source target : Address) :
    ((Reference.ofEdge e).toOption.map (·.isCall source target)).getD false =
      (e.isCall && e.source == source && e.target == target) := by
  rcases ofEdge_cases e with ⟨what, herror, hcall⟩ | ⟨r, hok, hsource, htarget, hcall⟩
  · simp [herror, hcall, Except.toOption]
  · simp [hok, hsource, htarget, hcall, Except.toOption, Reference.isCall]

/-- Ordinary flow is no call. -/
theorem isCall_and_not_isFlow (r : Except Error Reference) (source target : Address) :
    ((r.toOption.map (·.isCall source target)).getD false && !View.isFlow r) =
      (r.toOption.map (·.isCall source target)).getD false := by
  cases r with
  | error e => rfl
  | ok r =>
    by_cases hcall : r.kind = .codeCall
    · simp [View.isFlow, hcall]
    · simp [Except.toOption, Reference.isCall, hcall]

theorem countP_flatMap_of_unique {α β : Type} {l : List α} {f : α → List β} {p : β → Bool} {a : α} (ha : a ∈ l)
    (once : l.Nodup) (others : ∀ b ∈ l, b ≠ a → (f b).countP p = 0) : (l.flatMap f).countP p = (f a).countP p := by
  induction l with
  | nil => cases ha
  | cons b l ih =>
    obtain ⟨hb, hl⟩ := List.nodup_cons.1 once
    obtain ⟨hfirst, hrest⟩ := List.forall_mem_cons.1 others
    rw [List.flatMap_cons, List.countP_append]
    rcases List.mem_cons.1 ha with rfl | ha
    · have hnone : (l.flatMap f).countP p = 0 := by
        rw [List.countP_eq_zero]
        intro x hx
        obtain ⟨c, hc, hx⟩ := List.mem_flatMap.1 hx
        exact List.countP_eq_zero.1 (hrest c hc fun h => hb (h ▸ hc)) x hx
      rw [hnone, Nat.add_zero]
    · have hne : b ≠ a := fun h => hb (h ▸ ha)
      rw [hfirst hne, Nat.zero_add, ih ha hl hrest]

namespace Snapshot

variable {t : Snapshot} {stored : Stored} (m : Image)

/-- The calls among the references of one address. -/
theorem countP_referencesFrom (s : Snapshot) (a source target : Address) :
    (successes ((s.view m).referencesFrom a)).countP (·.isCall source target) =
      if a = source then s.edges.countP fun e => e.isCall && e.source == source && e.target == target else 0 := by
  have hedges : (s.view m).edgesFrom a = s.edges.filter fun e => e.source == a := rfl
  rw [successes, View.referencesFrom, hedges, List.countP_filterMap, List.countP_filter, List.countP_map,
    List.countP_filter]
  simp only [Function.comp_def, isCall_and_not_isFlow, isCall_ofEdge]
  split_ifs with h
  · refine List.countP_congr fun e _ => ?_
    simp [h]
    tauto
  · rw [List.countP_eq_zero]
    intro e _ hcall
    simp at hcall
    exact h (hcall.2.symm.trans hcall.1.1.2)

theorem itemHead_eq (accepted : t.load = .ok stored) (apart : Apart Item.places t.items) {i : Item} (hi : i ∈ t.items)
    {a : Address} (ha : a.toNat ∈ i.places) : (stored.tables.view m).itemHead a = i.address :=
  itemHead_of_some m ((itemAt_eq_some_iff accepted apart).2 ⟨hi, ha⟩)

theorem itemHead_le (s : Snapshot) (a : Address) : (s.view m).itemHead a ≤ a := by
  change ((s.itemAt a).map (·.address)).getD a ≤ a
  cases hfind : s.itemAt a with
  | none => exact UInt64.le_refl a
  | some i =>
    unfold itemAt at hfind
    have hcov : i.covers a := by simpa using List.find?_some hfind
    exact UInt64.le_iff_toNat_le.2 (Item.covers_iff.1 hcov).1

theorem functionAt_eq_some_iff (accepted : t.load = .ok stored) (apart : Apart FunctionEntry.body t.functions)
    (bodies : ∀ f ∈ t.functions, f.start < f.stop) {a : Address} {g : FunctionEntry} :
    stored.tables.functionAt a = some g ↔ g ∈ t.functions ∧ g.contains a := by
  have hperm : stored.tables.functions.Perm t.functions := by
    rw [functions_of_load accepted]
    exact (arranged_sorted t).perm
  have hcov : ∀ f ∈ stored.tables.functions, f.covers a ↔ a.toNat ∈ f.body :=
    fun f hf => FunctionEntry.covers_iff (bodies f (hperm.mem_iff.1 hf))
  rw [functionAt, (apart.perm hperm).find?_eq_some_iff hcov, hperm.mem_iff, FunctionEntry.mem_body_iff]

theorem edges_of_load (accepted : t.load = .ok stored) : stored.tables.edges = t.edges := by
  obtain ⟨-, rfl⟩ := load_eq_ok_iff.1 accepted
  rfl

/-- Each item of a body is met once: the start of the body is looked up at the item around it, which may
begin before, and all other heads at themselves. -/
theorem countP_functionReferences (accepted : t.load = .ok stored) (apart : Apart Item.places t.items)
    (g : FunctionEntry) {i : Item} (hi : i ∈ t.items) (inside : g.contains i.address) (target : Address) :
    (successes ((stored.tables.view m).functionReferences g)).countP (·.isCall i.address target) =
      t.edges.countP fun e => e.isCall && e.source == i.address && e.target == target := by
  obtain ⟨hstart, hstop⟩ : g.start ≤ i.address ∧ i.address < g.stop := by simpa [FunctionEntry.contains] using inside
  have hself : ∀ j ∈ t.items, (stored.tables.view m).itemHead j.address = j.address :=
    fun j hj => itemHead_eq m accepted apart hj j.address_mem_places
  have hmem : i.address ∈ (stored.tables.view m).heads g := by
    rw [mem_heads accepted]
    rcases UInt64.le_iff_lt_or_eq.1 hstart with hlt | heq
    · exact .inr ⟨hlt, hstop, i, hi, rfl⟩
    · exact .inl heq.symm
  have hother : ∀ a ∈ (stored.tables.view m).heads g, a ≠ i.address →
      (stored.tables.view m).itemHead a ≠ i.address := by
    intro a ha hne hhead
    rcases (mem_heads accepted m g).1 ha with rfl | ⟨-, -, j, hj, rfl⟩
    · have hle := itemHead_le m stored.tables g.start
      rw [hhead] at hle
      exact hne (UInt64.le_antisymm hstart hle)
    · rw [hself j hj] at hhead
      exact hne hhead
  have honce : ((stored.tables.view m).heads g).Nodup :=
    (heads_increasing accepted m g).imp fun hlt => UInt64.ne_of_lt hlt
  rw [successes, View.functionReferences, List.filterMap_flatMap, countP_flatMap_of_unique hmem honce, hself i hi]
  · exact (countP_referencesFrom m stored.tables _ _ target).trans (by rw [if_pos rfl, edges_of_load accepted])
  · intro a ha hne
    exact (countP_referencesFrom m stored.tables _ _ target).trans (if_neg (hother a ha hne))

theorem count_callers (accepted : t.load = .ok stored) (apart : Apart FunctionEntry.body t.functions)
    (bodies : ∀ f ∈ t.functions, f.start < f.stop) (f : FunctionEntry) {g : FunctionEntry} (hg : g ∈ t.functions) :
    (successes ((stored.tables.view m).callers f)).count g =
      t.edges.countP fun e => e.isCall && e.target == f.start && g.contains e.source := by
  have hedges : (stored.tables.view m).edgesTo f.start = t.edges.filter fun e => e.target == f.start := by
    rw [← edges_of_load accepted]
    rfl
  rw [List.count_eq_countP, successes, View.callers, View.referencesTo, hedges, List.countP_filterMap,
    List.countP_filterMap, List.countP_map, List.countP_filter]
  refine List.countP_congr fun e _ => ?_
  have hfound : (stored.tables.view m).functionAt e.source = some g ↔ g.contains e.source := by
    refine (functionAt_eq_some_iff accepted apart bodies).trans ?_
    exact and_iff_right hg
  rcases ofEdge_cases e with ⟨what, herror, hcall⟩ | ⟨r, hok, hsource, htarget, hcall⟩
  · simp [herror, hcall, Except.toOption]
  · simp only [Function.comp_apply, hok, hsource, hcall]
    cases hat : (stored.tables.view m).functionAt e.source with
    | none =>
      rw [hat] at hfound
      simp_all
    | some h =>
      rw [hat, Option.some.injEq] at hfound
      cases e.isCall <;> simp [Except.toOption, hfound, and_comm]

end Snapshot

/-- The calls from a function `g` to a function `f`, as they are seen from either end and as they stand
in the table. -/
structure CallsAgree (t : Snapshot) (v : View) (f g : FunctionEntry) : Prop where
  leaving : ∀ i ∈ t.items, g.contains i.address →
    (successes (v.functionReferences g)).countP (·.isCall i.address f.start) =
      t.edges.countP fun e => e.isCall && e.source == i.address && e.target == f.start
  arriving : (successes (v.callers f)).count g =
    t.edges.countP fun e => e.isCall && e.target == f.start && g.contains e.source
  seen : ∀ e ∈ t.edges, e.isCall → e.target = f.start → IsHead t.items e.source → g.contains e.source →
    g ∈ successes (v.callers f) ∧ ∃ r ∈ successes (v.functionReferences g), r.isCall e.source f.start
  accounted : g ∈ successes (v.callers f) → ∃ e ∈ t.edges, e.isCall ∧ e.target = f.start ∧ g.contains e.source

/-- Where items lie apart and functions have bodies that lie apart, callers and outgoing references give
the same calls. -/
theorem callsAgree_of_apart {t : Snapshot} {stored : Stored} (accepted : t.load = .ok stored)
    (items : Apart Item.places t.items) (functions : Apart FunctionEntry.body t.functions)
    (bodies : ∀ f ∈ t.functions, f.start < f.stop) (m : Image) (f : FunctionEntry) {g : FunctionEntry}
    (hg : g ∈ t.functions) : CallsAgree t (stored.tables.view m) f g := by
  have hleaving := fun i hi inside => Snapshot.countP_functionReferences m accepted items g (i := i) hi inside f.start
  have harriving := Snapshot.count_callers m accepted functions bodies f hg
  refine ⟨hleaving, harriving, ?_, ?_⟩
  · rintro e he hcall htarget ⟨i, hi, hsource⟩ inside
    constructor
    · rw [← List.count_pos_iff, harriving, List.countP_pos_iff]
      exact ⟨e, he, by simp [hcall, htarget, inside]⟩
    · rw [← List.countP_pos_iff, ← hsource, hleaving i hi (hsource ▸ inside), List.countP_pos_iff]
      exact ⟨e, he, by simp [hcall, htarget, hsource]⟩
  · intro hmem
    rw [← List.count_pos_iff, harriving, List.countP_pos_iff] at hmem
    obtain ⟨e, he, hcall⟩ := hmem
    simp only [Bool.and_eq_true, beq_iff_eq] at hcall
    exact ⟨e, he, hcall.1.1, hcall.1.2, hcall.2⟩

/-- A call that stands twice, one to the function itself, and an item that reaches into the next body. -/
def twoBodies : Snapshot :=
  { functions := [⟨0x1010, 0x1020, none⟩, ⟨0x1000, 0x1010, some "main"⟩]
    items := [⟨0x1004, 0, true, none, none, none⟩, ⟨0x1000, 4, true, none, none, none⟩,
      ⟨0x100c, 8, true, none, none, none⟩]
    edges := [⟨0x1004, 0x1010, 17, true⟩, ⟨0x1004, 0x1010, 16, true⟩, ⟨0x1004, 0x1010, 6, false⟩,
      ⟨0x1014, 0x1010, 17, true⟩, ⟨0x100c, 0x1010, 21, true⟩] }

theorem callsAgree_of_apart_twoBodies : ∃ stored, twoBodies.load = .ok stored ∧
    CallsAgree twoBodies (stored.tables.view []) ⟨0x1010, 0x1020, none⟩ ⟨0x1000, 0x1010, some "main"⟩ := by
  have accepted := Snapshot.load_eq_ok_iff.2 ⟨(Snapshot.flaw?_eq_none_iff twoBodies).1 rfl, rfl⟩
  refine ⟨_, accepted, callsAgree_of_apart accepted ?_ ?_ (by decide) [] _ (by decide)⟩
  · simp [Apart, Item.places, twoBodies, Set.Ico_disjoint_Ico]
  · simp [Apart, FunctionEntry.body, twoBodies, Set.Ico_disjoint_Ico]

end BinAtlas
