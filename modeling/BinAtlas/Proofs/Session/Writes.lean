import BinAtlas.Proofs.Session.Cursor
import BinAtlas.Proofs.Transfer

/-! Writes through a window are whole. A single write handles what fits into the range, or none of it where a
byte of that is not loaded. A write of all data is a loop of such writes, and still there is nothing between the
two: the first of them fails, or it fills the range and a second one finds no room. -/

namespace BinAtlas

/-- A byte that a write of `n` bytes would handle is not loaded. -/
def Window.Blocked (w : Window) (m : Image) (n : Nat) : Prop := ∃ i < w.span n, m.contentAt (w.place + i) = none

theorem Window.not_blocked_iff {w : Window} {m : Image} {n : Nat} :
    ¬ w.Blocked m n ↔ ∀ i < w.span n, (m.contentAt (w.place + i)).isSome := by
  simp only [Blocked, not_exists, not_and, ← Option.ne_none_iff_isSome, ne_eq]

theorem Window.not_blocked_iff_loaded {w : Window} {m : Image} {n : Nat} :
    ¬ w.Blocked m n ↔ m.loaded w.address (w.span n) := by
  rw [not_blocked_iff, w.loaded_address_iff]

namespace Session

/-- Writes at the window of a name. `Wrote` is all that a write may change; a write that is blocked changes nothing. -/
structure WritesWhole (s : Session Image) (id : String) (w : Window) : Prop where
  write : ∀ data, ¬ w.Blocked s.memory data.length → ∃ w' m,
    Turn s id (.write data) (.written (.ok (w.span data.length))) w' m ∧ w.Wrote data s.memory w' m
  write_blocked : ∀ data, w.Blocked s.memory data.length →
    Turn s id (.write data) (.written (.error (.database (.notFound (.written (w.span data.length) w.address))))) w
      s.memory
  writeAll : ∀ data, ¬ w.Blocked s.memory data.length → ∃ w' m,
    Turn s id (.writeAll data) (.done (if w.span data.length = data.length then .ok () else .error .writeZero)) w' m ∧
      w.Wrote data s.memory w' m
  writeAll_blocked : ∀ data, w.Blocked s.memory data.length →
    Turn s id (.writeAll data) (.done (.error (.database (.notFound (.written (w.span data.length) w.address))))) w
      s.memory
  /-- A write of all data does what the loop over single writes does. -/
  loop : ∀ data, ∃ r w' m, Turn s id (.writeAll data) (.done r) w' m ∧
    ∀ out, Repeats (Window.pourStep s.host) (data, w, s.memory) out ↔ out = (r, w', m)

theorem turn_writeAll {s : Session Image} {id : String} {w : Window} (hw : s.window? id = some w) (data : List UInt8) :
    Turn s id (.writeAll data) (.done (w.writeAll s.host s.memory data).1) (w.writeAll s.host s.memory data).2.1
      (w.writeAll s.host s.memory data).2.2 :=
  turn_of_step (t := { s with memory := (w.writeAll s.host s.memory data).2.2 }) hw rfl

theorem writesWhole {s : Session Image} (writes : s.host.patch = Image.patch) {id : String} {w : Window}
    (hw : s.window? id = some w) : WritesWhole s id w := by
  have hwrite := stepWindow_write writes w
  have hwriteAll := stepWindow_writeAll writes w
  constructor
  case write =>
    intro data hfree
    have hstep := hwrite data
    rw [if_pos (Window.not_blocked_iff_loaded.1 hfree)] at hstep
    exact ⟨_, _, turn_of_step hw hstep, w.wrote_storeFrom (Window.not_blocked_iff.1 hfree)⟩
  case write_blocked =>
    intro data hblocked
    have hstep := hwrite data
    rw [if_neg fun hl => Window.not_blocked_iff_loaded.2 hl hblocked] at hstep
    exact turn_of_step hw hstep
  case writeAll =>
    intro data hfree
    have hstep := hwriteAll data
    rw [if_pos (Window.not_blocked_iff_loaded.1 hfree)] at hstep
    exact ⟨_, _, turn_of_step hw hstep, w.wrote_storeFrom (Window.not_blocked_iff.1 hfree)⟩
  case writeAll_blocked =>
    intro data hblocked
    have hstep := hwriteAll data
    rw [if_neg fun hl => Window.not_blocked_iff_loaded.2 hl hblocked] at hstep
    exact turn_of_step hw hstep
  case loop =>
    intro data
    exact ⟨_, _, _, turn_writeAll hw data, (w.repeats_writeAll s.host s.memory data).iff_eq⟩

/-- The windows of a session over a snapshot write whole, at every moment of every run. -/
theorem writesWhole_run (stored : Stored) (capacity : Nat) (ops : List Operation) {id : String} {w : Window}
    (hw : (run (stored.session capacity) ops).2.window? id = some w) :
    WritesWhole (run (stored.session capacity) ops).2 id w :=
  writesWhole (patch_eq (host_run (stored.session capacity) ops)) hw

/-- Loaded bytes with a gap between them. -/
def gapped : Stored := { tables := {}, image := [⟨0x1000, #[1, 2, 3, 4]⟩, ⟨0x1006, #[5, 6]⟩] }

/-- One window ends where the gap begins and one behind it; both stand at the last byte before it. -/
def gappedSteps : List Operation :=
  [.openWindow "short" 0x1000 0x1004, .onWindow "short" (.seek (.start 2)), .onWindow "short" (.write [7]),
    .openWindow "long" 0x1000 0x1008, .onWindow "long" (.seek (.start 3))]

/-- The same data fills the one range and is short of room, and is refused as a whole by the other. -/
theorem writesWhole_run_gapped :
    let s := (run (gapped.session 1) gappedSteps).2
    (∃ w w' m, s.window? "short" = some w ∧ WritesWhole s "short" w ∧
      Turn s "short" (.writeAll [8, 9]) (.done (.error .writeZero)) w' m ∧
      m.contentAt 0x1002 = some 7 ∧ m.contentAt 0x1003 = some 8 ∧ m.contentAt 0x1006 = some 5) ∧
    ∃ w, s.window? "long" = some w ∧ WritesWhole s "long" w ∧
      Turn s "long" (.writeAll [8, 9]) (.done (.error (.database (.notFound (.written 2 0x1003))))) w s.memory := by
  intro s
  have hshort : s.window? "short" = some ⟨0x1000, 0x1004, 3, by decide⟩ := rfl
  have hlong : s.window? "long" = some ⟨0x1000, 0x1008, 3, by decide⟩ := rfl
  have short := writesWhole_run gapped 1 gappedSteps hshort
  have long := writesWhole_run gapped 1 gappedSteps hlong
  constructor
  · obtain ⟨w', m, hturn, hwrote⟩ := short.writeAll [8, 9] (Window.not_blocked_iff.2 (by decide))
    refine ⟨_, w', m, hshort, short, hturn, ?_, hwrote.inside 0 (by decide), ?_⟩
    · exact (hwrote.outside 0x1002 (by decide)).trans rfl
    · exact (hwrote.outside 0x1006 (by decide)).trans rfl
  · exact ⟨_, hlong, long, long.writeAll_blocked [8, 9] ⟨1, by decide, by decide⟩⟩

end Session
end BinAtlas
