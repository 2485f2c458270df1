import BinAtlas.Proofs.Enumeration
import BinAtlas.Proofs.Session.ByteStore

/-! Functions of a range that is cut in two. A host reports more for a range than begins in it, namely what
reaches into it from before; all of that is dropped again, and nothing else. So at a cut no function is
lost or listed twice, whatever the functions share, and every start that is left is found again. -/

namespace BinAtlas

/-- Where a property holds from some place of a list on, what has it follows what has it not. -/
theorem filter_eq_append {α : Type} {p q : α → Bool} {l : List α} (hl : l.Pairwise fun a b => q a → q b) :
    l.filter p = l.filter (fun a => p a && !q a) ++ l.filter (fun a => p a && q a) := by
  induction l with
  | nil => rfl
  | cons a l ih =>
    obtain ⟨hfirst, hrest⟩ := List.pairwise_cons.1 hl
    by_cases ha : q a
    · have hall : ∀ b ∈ a :: l, q b := by
        intro b hb
        rcases List.mem_cons.1 hb with rfl | hb
        · exact ha
        · exact hfirst b hb ha
      have hnone : (a :: l).filter (fun b => p b && !q b) = [] := by
        rw [List.filter_eq_nil_iff]
        intro b hb
        simp [hall b hb]
      have hsame : (a :: l).filter (fun b => p b && q b) = (a :: l).filter p := by
        apply List.filter_congr
        intro b hb
        simp [hall b hb]
      rw [hnone, hsame, List.nil_append]
    · cases hp : p a <;> simp [ha, hp, ih hrest]

namespace FunctionEntry

variable (f : FunctionEntry) {start stop : Option Address} {cut : Address}

theorem beginsIn_before (h : ∀ c ∈ stop, cut ≤ c) :
    f.beginsIn start (some cut) = (f.beginsIn start stop && !decide (cut ≤ f.start)) := by
  by_cases hcut : cut ≤ f.start
  · simp [beginsIn, hcut]
  · have hlt : f.start < cut := UInt64.not_le.1 hcut
    have hbelow : stop.all (f.start < ·) := by
      rw [Option.all_eq_true]
      intro c hc
      exact decide_eq_true (UInt64.lt_of_lt_of_le hlt (h c hc))
    simp [beginsIn, hlt, hbelow]

theorem beginsIn_after (h : ∀ a ∈ start, a ≤ cut) :
    f.beginsIn (some cut) stop = (f.beginsIn start stop && decide (cut ≤ f.start)) := by
  by_cases hcut : cut ≤ f.start
  · have habove : start.all (· ≤ f.start) := by
      rw [Option.all_eq_true]
      intro a ha
      exact decide_eq_true (UInt64.le_trans (h a ha) hcut)
    simp [beginsIn, hcut, habove]
  · simp [beginsIn, hcut]

end FunctionEntry

namespace Snapshot

variable {t : Snapshot} {stored : Stored} (accepted : t.load = .ok stored) (m : Image)
  {start stop : Option Address} {cut : Address}

include accepted

theorem functions_eq_append (hstart : ∀ a ∈ start, a ≤ cut) (hstop : ∀ c ∈ stop, cut ≤ c) :
    (stored.tables.view m).functions start stop =
      (stored.tables.view m).functions start (some cut) ++ (stored.tables.view m).functions (some cut) stop := by
  have hordered : t.sorted.Pairwise fun f g => decide (cut ≤ f.start) → decide (cut ≤ g.start) := by
    apply (arranged_sorted t).ordered.imp
    intro f g hfg hf
    exact decide_eq_true (UInt64.le_trans (of_decide_eq_true hf) hfg)
  have hbefore : (fun f : FunctionEntry => f.beginsIn start (some cut)) =
      fun f => f.beginsIn start stop && !decide (cut ≤ f.start) := funext fun f => f.beginsIn_before hstop
  have hafter : (fun f : FunctionEntry => f.beginsIn (some cut) stop) =
      fun f => f.beginsIn start stop && decide (cut ≤ f.start) := funext fun f => f.beginsIn_after hstart
  rw [functions_eq_map accepted, functions_eq_map accepted, functions_eq_map accepted, ← List.map_append, hbefore,
    hafter, ← filter_eq_append hordered]

/-- No start is left without a function, so there are as many as begin in the range. -/
theorem exists_functions (start stop : Option Address) : ∃ l : List FunctionEntry,
    (stored.tables.view m).functions start stop = l.map .ok ∧
    l.length = t.functions.countP (·.beginsIn start stop) := by
  obtain ⟨l, hs, harr, hall, hfunctions⟩ := exists_surrounding accepted m start stop
  refine ⟨hs, hfunctions, ?_⟩
  rw [← hall.length_eq, harr.perm.length_eq, List.countP_eq_length_filter]

end Snapshot

namespace Session

/-- A session lists functions for a range, without an error: as records of the host and as they are shown. -/
structure Lists (s : Session Image) (start stop : Option Address) (l : List FunctionEntry) : Prop where
  records : s.view.functions start stop = l.map .ok
  shown : (perform (.functions start stop) s).1 = .functions ((l.map s.view.shown).map .ok)
  collected : (perform (.collectFunctions start stop) s).1 = .collectedFunctions (.ok (l.map s.view.shown))

theorem lists_of_records {s : Session Image} {start stop : Option Address} {l : List FunctionEntry}
    (h : s.view.functions start stop = l.map .ok) : Lists s start stop l where
  records := h
  shown := by
    change Answer.functions ((s.view.functions start stop).map _) = _
    rw [h, List.map_map, List.map_map]
    rfl
  collected := by
    change Answer.collectedFunctions (s.view.collectFunctions start stop) = _
    rw [View.collectFunctions, h, mapM_id_map_ok]

/-- A range that is cut anywhere is listed in two parts, one behind the other. There are no errors, and as many
functions as begin in the range. -/
theorem lists_parts_run {t : Snapshot} {stored : Stored} (accepted : t.load = .ok stored) (capacity : Nat)
    (ops : List Operation) {start stop : Option Address} {cut : Address} (hstart : ∀ a ∈ start, a ≤ cut)
    (hstop : ∀ c ∈ stop, cut ≤ c) :
    let s := (run (stored.session capacity) ops).2
    ∃ before after : List FunctionEntry,
      Lists s start (some cut) before ∧ Lists s (some cut) stop after ∧ Lists s start stop (before ++ after) ∧
      (before ++ after).length = t.functions.countP (·.beginsIn start stop) := by
  intro s
  have hview : s.view = stored.tables.view s.memory := view_eq (host_run _ ops)
  obtain ⟨before, hbefore, -⟩ := Snapshot.exists_functions accepted s.memory start (some cut)
  obtain ⟨after, hafter, -⟩ := Snapshot.exists_functions accepted s.memory (some cut) stop
  obtain ⟨all, hall, hlength⟩ := Snapshot.exists_functions accepted s.memory start stop
  have hwhole := Snapshot.functions_eq_append accepted s.memory hstart hstop
  rw [hbefore, hafter, hall, ← List.map_append] at hwhole
  obtain rfl : all = before ++ after := List.map_injective_iff.2 (fun _ _ => Except.ok.inj) hwhole
  rw [← hview] at hbefore hafter hall
  exact ⟨before, after, lists_of_records hbefore, lists_of_records hafter, lists_of_records hall, hlength⟩

/-- Functions that lie within each other, one of them empty and two with one start, in no order. -/
def entangled : Snapshot :=
  { functions := [⟨0x1500, 0x1600, some "inner"⟩, ⟨0x2000, 0x2000, none⟩, ⟨0x1000, 0x3000, some "outer"⟩,
      ⟨0x1500, 0x1500, some "stub"⟩] }

/-- The cut lies within three functions and at the start of two. -/
theorem lists_parts_run_entangled : ∃ stored, entangled.load = .ok stored ∧
    let s := (run (stored.session 1) [.functions none none, .clearCaches]).2
    ∃ before after : List FunctionEntry,
      Lists s (some 0x1000) (some 0x1500) before ∧ Lists s (some 0x1500) none after ∧
      Lists s (some 0x1000) none (before ++ after) ∧ (before ++ after).length = 4 := by
  have accepted := Snapshot.load_eq_ok_iff.2 ⟨(Snapshot.flaw?_eq_none_iff entangled).1 rfl, rfl⟩
  exact ⟨_, accepted, lists_parts_run accepted 1 [.functions none none, .clearCaches] (by simp) (by simp)⟩

end Session
end BinAtlas
