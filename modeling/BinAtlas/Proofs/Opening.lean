import BinAtlas.Atlas
import BinAtlas.Command.Run

/-! What it takes to open what a command is about: the file of the configuration, if one is named, and that
of the snapshot are texts that are read as what they should be, and the snapshot is accepted. -/

namespace BinAtlas

namespace Files

variable {files : Files} {tools : Toolkit} {path : String} {config : Config} {stored : Stored}

/-- The file is a text that is read as such a record. -/
def Reads {α : Type} (files : Files) (tools : Toolkit) (decode? : {δ : Type} → [Document δ] → δ → Option α)
    (path : String) (a : α) : Prop :=
  ∃ bytes text, files path = .ok bytes ∧ Utf8.decode? bytes = some text ∧
    (tools.reader (formatOf path)).record? decode? text = some a

/-- The file is read as a snapshot, and the snapshot is accepted. -/
def Stores (files : Files) (tools : Toolkit) (path : String) (stored : Stored) : Prop :=
  ∃ tables, files.Reads tools Snapshot.decode? path tables ∧ tables.load = .ok stored

theorem text_eq_ok_iff {text : String} :
    files.text path = .ok text ↔ ∃ bytes, files path = .ok bytes ∧ Utf8.decode? bytes = some text := by
  unfold Files.text
  cases files path with
  | error fault => simp [Bind.bind, Except.bind]
  | ok bytes =>
    cases h : Utf8.decode? bytes with
    | none => simp [Bind.bind, Except.bind, h]
    | some s => simp [Bind.bind, Except.bind, h]

theorem reads_iff {α : Type} {decode? : {δ : Type} → [Document δ] → δ → Option α} {a : α} :
    files.Reads tools decode? path a ↔
      ∃ text, files.text path = .ok text ∧ (tools.reader (formatOf path)).record? decode? text = some a := by
  simp only [Reads, text_eq_ok_iff]
  constructor
  · rintro ⟨bytes, text, hbytes, htext, ha⟩
    exact ⟨text, ⟨bytes, hbytes, htext⟩, ha⟩
  · rintro ⟨text, ⟨bytes, hbytes, htext⟩, ha⟩
    exact ⟨bytes, text, hbytes, htext, ha⟩

theorem loadConfig_eq_ok_iff :
    files.loadConfig tools path = .ok config ↔ files.Reads tools Config.decode? path config := by
  rw [reads_iff, loadConfig]
  cases files.text path with
  | error fault => simp
  | ok text =>
    cases h : (tools.reader (formatOf path)).record? Config.decode? text with
    | none => simp [h]
    | some c => simp [h]

theorem loadSnapshot_eq_ok_iff : files.loadSnapshot tools path = .ok stored ↔ files.Stores tools path stored := by
  simp only [Stores, reads_iff, loadSnapshot]
  cases files.text path with
  | error fault => simp
  | ok text =>
    cases h : (tools.reader (formatOf path)).record? Snapshot.decode? text with
    | none => simp [Snapshot.loadText, Snapshot.ofText, h, Bind.bind, Except.bind]
    | some tables => simp [Snapshot.loadText, Snapshot.ofText, h, Bind.bind, Except.bind]

end Files

/-- The configuration of a run: the standard one, or what is read from the file that is named. -/
inductive Configured (tools : Toolkit) (files : Files) : Option String → Config → Prop
  | standard : Configured tools files none {}
  | read {path config} (h : files.Reads tools Config.decode? path config) : Configured tools files (some path) config

theorem Atlas.configOf_eq_ok_iff {tools : Toolkit} {files : Files} {path : Option String} {config : Config} :
    configOf tools files path = .ok config ↔ Configured tools files path config := by
  constructor
  · intro h
    cases path with
    | none =>
      cases h
      exact .standard
    | some path => exact .read (Files.loadConfig_eq_ok_iff.1 h)
  · rintro (_ | h)
    · rfl
    · exact Files.loadConfig_eq_ok_iff.2 h

/-- Nothing has been asked of the session yet. -/
def Atlas.Untouched (atlas : Atlas) : Prop :=
  ∃ host image capacity, atlas.session = Session.start host image capacity

/-- What is opened: a session over the snapshot that is named, under the configuration of the run. -/
inductive Invocation.Opens (i : Invocation) (tools : Toolkit) (files : Readings) : Atlas → Prop
  | opened {config path stored} (hconfig : Configured tools files.config i.config config)
    (hpath : i.snapshot = some path) (hstored : files.snapshot.Stores tools path stored) :
    i.Opens tools files ⟨config, path, stored.session config.cacheCapacity.toNat⟩

namespace Invocation.Opens

variable {i : Invocation} {tools : Toolkit} {files : Readings} {atlas : Atlas}

theorem untouched (h : i.Opens tools files atlas) : atlas.Untouched := by
  obtain ⟨-, -, -⟩ := h
  exact ⟨_, _, _, rfl⟩

/-- The form of the report has no part in it. -/
theorem form (h : i.Opens tools files atlas) (json : Bool) : { i with json }.Opens tools files atlas := by
  obtain ⟨hconfig, hpath, hstored⟩ := h
  exact .opened hconfig hpath hstored

end Invocation.Opens
end BinAtlas
