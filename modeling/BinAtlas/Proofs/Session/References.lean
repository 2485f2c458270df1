import BinAtlas.Proofs.CallGraph
import BinAtlas.Proofs.Printing
import BinAtlas.Proofs.Session.ByteStore

/-! References from both ends. Each entry of the table gives one result at the address it leaves and one at the
address it arrives at, in the order of the table, but for ordinary flow, which is not listed where it leaves. An
entry whose code stands for no kind is an error in both lists. To collect a list is to stop at the first of those. -/

namespace BinAtlas

namespace Edge

/-- The end of an edge that a direction looks from. -/
def near (e : Edge) : Direction → Address
  | .outgoing => e.source
  | .incoming => e.target

/-- Whether the host's code of an edge stands for a kind. -/
def isMapped (e : Edge) : Bool := (ReferenceKind.ofCode? e.kind).isSome

def isFlow (e : Edge) : Bool := ReferenceKind.ofCode? e.kind == some .ordinaryFlow

/-- Whether an edge has a result at an address. -/
def listedAt (a : Address) (d : Direction) (e : Edge) : Bool := e.near d == a && !(d == .outgoing && e.isFlow)

/-- Whether the result of an edge at an address is an error. -/
def unmappedAt (a : Address) (d : Direction) (e : Edge) : Bool := e.near d == a && !e.isMapped

variable {e : Edge}

theorem ofCode?_eq_none (h : e.isMapped = false) : ReferenceKind.ofCode? e.kind = none := by
  simpa [isMapped] using h

theorem isFlow_of_not_isMapped (h : e.isMapped = false) : e.isFlow = false := by
  rw [isFlow, ofCode?_eq_none h]
  rfl

theorem ofEdge_of_some {kind : ReferenceKind} (h : ReferenceKind.ofCode? e.kind = some kind) :
    Reference.ofEdge e =
      .ok { source := e.source, target := e.target, kind, isCode := e.isCode, isData := kind.isData } := by
  rw [Reference.ofEdge, h]

theorem ofEdge_of_not_isMapped (h : e.isMapped = false) :
    Reference.ofEdge e = .error (.unexpectedReferenceType e.kind) := by
  rw [Reference.ofEdge, ofCode?_eq_none h]

theorem exists_ofEdge_of_isMapped (h : e.isMapped) : ∃ r, Reference.ofEdge e = .ok r := by
  obtain ⟨kind, hkind⟩ := Option.isSome_iff_exists.1 h
  exact ⟨_, ofEdge_of_some hkind⟩

/-- An edge is ordinary flow if and only if its result is. -/
theorem isFlow_ofEdge (e : Edge) : View.isFlow (Reference.ofEdge e) = e.isFlow := by
  cases hkind : ReferenceKind.ofCode? e.kind with
  | none =>
    rw [Reference.ofEdge, isFlow, hkind]
    rfl
  | some kind =>
    rw [ofEdge_of_some hkind, isFlow, hkind]
    rfl

/-- Only results without an error are left out. -/
theorem unmappedAt_and_listedAt (a : Address) (d : Direction) (e : Edge) :
    (!e.isMapped && e.listedAt a d) = e.unmappedAt a d := by
  unfold listedAt unmappedAt
  cases hmapped : e.isMapped with
  | true => simp
  | false => simp [isFlow_of_not_isMapped hmapped]

end Edge

/-- What a part of the table gives at an address. -/
def results (edges : List Edge) (a : Address) (d : Direction) : List (Except Error Reference) :=
  (edges.filter (·.listedAt a d)).map Reference.ofEdge

theorem Snapshot.references_view (t : Snapshot) (m : Image) (a : Address) (d : Direction) :
    (t.view m).references a d = results t.edges a d := by
  cases d with
  | incoming =>
    change (t.edges.filter (·.target == a)).map Reference.ofEdge = _
    unfold results
    congr 2
    funext e
    simp [Edge.listedAt, Edge.near]
  | outgoing =>
    change ((t.edges.filter (·.source == a)).map Reference.ofEdge).filter _ = _
    rw [List.filter_map, List.filter_filter, results]
    congr 2
    funext e
    simp [Edge.listedAt, Edge.near, Edge.isFlow_ofEdge, Bool.and_comm]

theorem errors_map_ofEdge (edges : List Edge) :
    errors (edges.map Reference.ofEdge) =
      (edges.filter (!·.isMapped)).map fun e => .unexpectedReferenceType e.kind := by
  induction edges with
  | nil => rfl
  | cons e es ih =>
    cases hmapped : e.isMapped with
    | true =>
      obtain ⟨r, hr⟩ := Edge.exists_ofEdge_of_isMapped hmapped
      simpa [hmapped, hr] using ih
    | false => simpa [hmapped, Edge.ofEdge_of_not_isMapped hmapped] using ih

/-- The errors at an address are those of the edges without a kind, in their order. -/
theorem errors_results (edges : List Edge) (a : Address) (d : Direction) :
    errors (results edges a d) =
      (edges.filter (·.unmappedAt a d)).map fun e => .unexpectedReferenceType e.kind := by
  rw [results, errors_map_ofEdge, List.filter_filter]
  simp only [Edge.unmappedAt_and_listedAt]

/-- An edge without a kind has its error between the results of the edges before it and those after it. -/
theorem results_append_cons {before after : List Edge} {e : Edge} (h : e.isMapped = false) (d : Direction) :
    results (before ++ e :: after) (e.near d) d =
      results before (e.near d) d ++
        .error (.unexpectedReferenceType e.kind) :: results after (e.near d) d := by
  have hlisted : e.listedAt (e.near d) d := by simp [Edge.listedAt, Edge.isFlow_of_not_isMapped h]
  unfold results
  rw [List.filter_append, List.map_append, List.filter_cons_of_pos hlisted, List.map_cons,
    Edge.ofEdge_of_not_isMapped h]

/-- A filter over values is one over what they are made of. -/
theorem filter_successes_map {ε α β : Type} {F : α → Except ε β} {p : β → Bool} {q : α → Bool}
    (h : ∀ a b, F a = .ok b → p b = q a) (l : List α) :
    (successes (l.map F)).filter p = successes ((l.filter q).map F) := by
  induction l with
  | nil => rfl
  | cons a l ih =>
    rw [List.map_cons]
    cases hF : F a with
    | error e => cases hq : q a <;> simp [hF, hq, ih]
    | ok b => cases hq : q a <;> simp [hF, hq, ih, h a b hF]

theorem ofEdge_eq_ok {e : Edge} {r : Reference} (h : Reference.ofEdge e = .ok r) :
    r.source = e.source ∧ r.target = e.target ∧ (r.kind == .ordinaryFlow) = e.isFlow := by
  cases hkind : ReferenceKind.ofCode? e.kind with
  | none =>
    rw [Reference.ofEdge, hkind] at h
    cases h
  | some kind =>
    rw [Edge.ofEdge_of_some hkind] at h
    cases h
    rw [Edge.isFlow, hkind]
    exact ⟨rfl, rfl, rfl⟩

/-- From both ends the same edges are seen, ordinary flow aside. -/
theorem same_edges (edges : List Edge) (a b : Address) :
    (successes (results edges a .outgoing)).filter (·.target == b) =
      (successes (results edges b .incoming)).filter fun r => r.source == a && r.kind != .ordinaryFlow := by
  have hleaving : ∀ e r, Reference.ofEdge e = .ok r → (r.target == b) = (e.target == b) := by
    intro e r hr
    rw [(ofEdge_eq_ok hr).2.1]
  have harriving : ∀ e r, Reference.ofEdge e = .ok r →
      (r.source == a && r.kind != .ordinaryFlow) = (e.source == a && !e.isFlow) := by
    intro e r hr
    obtain ⟨hsource, -, hflow⟩ := ofEdge_eq_ok hr
    rw [hsource, bne, hflow]
  unfold results
  rw [filter_successes_map hleaving, filter_successes_map harriving, List.filter_filter, List.filter_filter]
  congr 3
  funext e
  simp only [Edge.listedAt, Edge.near]
  cases e.source == a <;> cases e.target == b <;> cases e.isFlow <;> rfl

/-- To collect references is to take all of them, or to fail with the first entry without a kind. -/
theorem View.collectReferences_cases {v : View} {edges : List Edge} {a : Address} {d : Direction}
    (h : v.references a d = results edges a d) :
    (∃ l, results edges a d = l.map .ok ∧ v.collectReferences a d = .ok l ∧ edges.find? (·.unmappedAt a d) = none) ∨
      ∃ e, edges.find? (·.unmappedAt a d) = some e ∧
        v.collectReferences a d = .error (.classifying a (.unexpectedReferenceType e.kind)) := by
  have herrors := errors_results edges a d
  rw [← List.head?_filter]
  cases hbad : edges.filter (·.unmappedAt a d) with
  | nil =>
    rw [hbad] at herrors
    obtain ⟨l, hl⟩ := exists_map_ok_of_errors herrors
    exact .inl ⟨l, hl, collectReferences_of_map (h.trans hl), rfl⟩
  | cons e es =>
    rw [hbad] at herrors
    refine .inr ⟨e, rfl, ?_⟩
    rw [collectReferences, h, mapM_id_of_errors herrors]

namespace Session

/-- What a session says of references, where `edges` is the table of them. -/
structure SharesEdges (edges : List Edge) (s : Session Image) : Prop where
  answered : ∀ a d, (perform (.references a d) s).1 = .references (results edges a d)
  same : ∀ a b, (successes (results edges a .outgoing)).filter (·.target == b) =
    (successes (results edges b .incoming)).filter fun r => r.source == a && r.kind != .ordinaryFlow
  errors_eq : ∀ a d, errors (results edges a d) =
    (edges.filter fun e => e.near d == a && !e.isMapped).map fun e => .unexpectedReferenceType e.kind
  /-- An error has the place that its entry has in the table. -/
  place : ∀ before e after, edges = before ++ e :: after → e.isMapped = false → ∀ d,
    results edges (e.near d) d = results before (e.near d) d ++
      .error (.unexpectedReferenceType e.kind) :: results after (e.near d) d
  collect_ok_iff : ∀ a d, (∃ l, (perform (.collectReferences a d) s).1 = .collectedReferences (.ok l)) ↔
    ∀ e ∈ edges, e.near d = a → e.isMapped
  collected : ∀ a d l, (perform (.collectReferences a d) s).1 = .collectedReferences (.ok l) →
    results edges a d = l.map .ok
  /-- The first error in the order of the table is reported. -/
  refused : ∀ a d e, edges.find? (fun e => e.near d == a && !e.isMapped) = some e →
    (perform (.collectReferences a d) s).1 =
      .collectedReferences (.error (.classifying a (.unexpectedReferenceType e.kind)))

/-- At every moment of every run a session shows its table from both ends. -/
theorem sharesEdges_run {t : Snapshot} {stored : Stored} (accepted : t.load = .ok stored) (capacity : Nat)
    (ops : List Operation) : SharesEdges t.edges (run (stored.session capacity) ops).2 := by
  have hhost : (run (stored.session capacity) ops).2.host = stored.tables.host := host_run _ ops
  generalize (run (stored.session capacity) ops).2 = s at hhost ⊢
  have hview : ∀ a d, s.view.references a d = results t.edges a d := by
    intro a d
    rw [view_eq hhost, Snapshot.references_view, Snapshot.edges_of_load accepted]
  constructor
  case answered => exact fun a d => congrArg Answer.references (hview a d)
  case same => exact same_edges t.edges
  case errors_eq => exact errors_results t.edges
  case place =>
    intro before e after hedges hmapped d
    rw [hedges]
    exact results_append_cons hmapped d
  case collect_ok_iff =>
    intro a d
    have hnone : t.edges.find? (·.unmappedAt a d) = none ↔ ∀ e ∈ t.edges, e.near d = a → e.isMapped := by
      simp [Edge.unmappedAt]
    rw [← hnone]
    change (∃ l, Answer.collectedReferences (s.view.collectReferences a d) = .collectedReferences (.ok l)) ↔ _
    rcases View.collectReferences_cases (hview a d) with ⟨l, -, hok, hfind⟩ | ⟨e, hfind, herror⟩
    · rw [hok, hfind]
      simp
    · rw [herror, hfind]
      simp
  case collected =>
    intro a d l hl
    have hok : s.view.collectReferences a d = .ok l := Answer.collectedReferences.inj hl
    rcases View.collectReferences_cases (hview a d) with ⟨l', hresults, hok', -⟩ | ⟨e, -, herror⟩
    · rw [hok'] at hok
      rw [hresults, Except.ok.inj hok]
    · rw [herror] at hok
      cases hok
  case refused =>
    intro a d e he
    rcases View.collectReferences_cases (hview a d) with ⟨l, -, -, hfind⟩ | ⟨e', hfind, herror⟩
    · cases hfind.symm.trans he
    · cases hfind.symm.trans he
      exact congrArg Answer.collectedReferences herror

/-- Entries that stand twice, that refer to themselves, that fall through, and two without a kind. -/
def tangled : Snapshot :=
  { edges := [⟨0x1000, 0x1004, 21, true⟩, ⟨0x1000, 0x1004, 17, true⟩, ⟨0x1004, 0x1004, 6, false⟩,
      ⟨0x1000, 0x1004, 17, true⟩, ⟨0x1004, 0x1000, 99, false⟩, ⟨0x1000, 0x1000, 1, false⟩] }

theorem sharesEdges_run_tangled : ∃ stored, tangled.load = .ok stored ∧
    let s := (run (stored.session 2) [.references 0x1000 .outgoing, .clearCaches]).2
    SharesEdges tangled.edges s ∧
      (∃ l, (perform (.collectReferences 0x1000 .outgoing) s).1 = .collectedReferences (.ok l)) ∧
      (perform (.collectReferences 0x1004 .incoming) s).1 =
        .collectedReferences (.error (.classifying 0x1004 (.unexpectedReferenceType 6))) ∧
      (perform (.collectReferences 0x1000 .incoming) s).1 =
        .collectedReferences (.error (.classifying 0x1000 (.unexpectedReferenceType 99))) := by
  have accepted := Snapshot.load_eq_ok_iff.2 ⟨(Snapshot.flaw?_eq_none_iff tangled).1 rfl, rfl⟩
  have hshares := sharesEdges_run accepted 2 [.references 0x1000 .outgoing, .clearCaches]
  refine ⟨_, accepted, hshares, ?_, ?_, ?_⟩
  · exact (hshares.collect_ok_iff 0x1000 .outgoing).2 (by decide)
  · exact hshares.refused 0x1004 .incoming ⟨0x1004, 0x1004, 6, false⟩ (by decide)
  · exact hshares.refused 0x1000 .incoming ⟨0x1004, 0x1000, 99, false⟩ (by decide)

end Session
end BinAtlas
