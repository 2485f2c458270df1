import BinAtlas.Atlas
import BinAtlas.Proofs.Listing
import BinAtlas.Proofs.Session.ByteStore

/-! Names at an address. An item that begins there and a function that starts there may have a name, and an empty one
is none. But the look-up settles on a row of the tables before it looks what the name of that row is: on the first
item, if it has a name at all, and else on the first function. Where that name is empty, or that function has none, the
names of the other rows are not found. -/

namespace BinAtlas

theorem View.getName_eq_ok_iff {v : View} {a : Address} {n : String} :
    v.getName a = .ok n ↔ v.nameAt a = some n ∧ n ≠ "" := by
  have hname : v.name? a = some n ↔ v.nameAt a = some n ∧ n ≠ "" := by
    simp [View.name?, Option.filter_eq_some_iff]
  rw [← hname, View.getName]
  rcases v.name? a with _ | m <;> simp

theorem View.getName_eq_error {v : View} {a : Address} (h : ∀ n, v.getName a ≠ .ok n) :
    v.getName a = .error (.notFound (.name a)) := by
  unfold View.getName at h ⊢
  rcases hname : v.name? a with _ | n
  · rfl
  · simp [hname] at h

namespace Snapshot

variable {t : Snapshot} {a : Address} {n : String}

/-- A row of an address has a name that is not empty. -/
inductive RecordsName (t : Snapshot) (a : Address) (n : String) : Prop
  | item (i : Item) (mem : i ∈ t.items) (start : i.address = a) (name : i.name = some n) (filled : n ≠ "")
  | function (f : FunctionEntry) (mem : f ∈ t.functions) (start : f.start = a) (name : f.name = some n) (filled : n ≠ "")

/-- The name of the first item at an address. -/
def itemNameAt (t : Snapshot) (a : Address) : Option String := (t.items.find? (·.address == a)).bind (·.name)

theorem nameAt_eq (t : Snapshot) (a : Address) : t.nameAt a = (t.itemNameAt a).or (t.functionNameAt a) := by
  rw [nameAt, itemNameAt, functionNameAt, Option.orElse_eq_orElse, Option.orElse_eq_or]

/-- The rows of an address have a name, and the one that is settled on has none. -/
inductive HidesNames (t : Snapshot) (a : Address) : Prop
  | emptyItem (recorded : ∃ n, t.RecordsName a n) (empty : t.itemNameAt a = some "")
  | unnamed (recorded : ∃ n, t.RecordsName a n) (bare : t.itemNameAt a = none) (empty : t.functionNameAt a ∈ [none, some ""])

theorem exists_of_itemNameAt (h : t.itemNameAt a = some n) : ∃ i ∈ t.items, i.address = a ∧ i.name = some n := by
  obtain ⟨i, hfind, hname⟩ := Option.bind_eq_some_iff.1 h
  exact ⟨i, List.mem_of_find?_eq_some hfind, by simpa using List.find?_some hfind, hname⟩

theorem exists_of_functionNameAt (h : t.functionNameAt a = some n) : ∃ f ∈ t.functions, f.start = a ∧ f.name = some n := by
  obtain ⟨f, hfind, hname⟩ := Option.bind_eq_some_iff.1 h
  exact ⟨f, List.mem_of_find?_eq_some hfind, by simpa using List.find?_some hfind, hname⟩

theorem recordsName_of_nameAt (h : t.nameAt a = some n) (hn : n ≠ "") : t.RecordsName a n := by
  rw [nameAt_eq, Option.or_eq_some_iff] at h
  rcases h with h | ⟨-, h⟩
  · obtain ⟨i, hi, haddress, hname⟩ := exists_of_itemNameAt h
    exact .item i hi haddress hname hn
  · obtain ⟨f, hf, hstart, hname⟩ := exists_of_functionNameAt h
    exact .function f hf hstart hname hn

/-- Where names are recorded, one of them is found or they are hidden. -/
theorem hidesNames_iff : t.HidesNames a ↔ (∃ n, t.RecordsName a n) ∧ ∀ n, t.nameAt a = some n → n = "" := by
  rw [nameAt_eq]
  constructor
  · rintro (⟨hrecorded, hempty⟩ | ⟨hrecorded, hbare, hempty⟩) <;> refine ⟨hrecorded, fun n hn => ?_⟩
    · simpa [hempty, eq_comm] using hn
    · rw [hbare, Option.none_or] at hn
      simpa [hn] using hempty
  · rintro ⟨hrecorded, hnone⟩
    rcases hitem : t.itemNameAt a with _ | n
    · refine .unnamed hrecorded hitem ?_
      rcases hfunction : t.functionNameAt a with _ | n
      · simp
      · simp [hnone n (by rw [hitem, hfunction]; rfl)]
    · rw [hnone n (by rw [hitem]; rfl)] at hitem
      exact .emptyItem hrecorded hitem

/-- A key that no two rows share finds its row. -/
theorem find?_key_of_mem {α : Type} {key : α → Address} {rows : List α} {x : α}
    (h : rows.Pairwise fun y z => key y ≠ key z) (hx : x ∈ rows) : rows.find? (key · == key x) = some x := by
  induction h with
  | nil => simp at hx
  | @cons y ys hy _ ih =>
    rcases List.mem_cons.1 hx with rfl | hx
    · exact List.find?_cons_of_pos (by simp)
    · rw [List.find?_cons_of_neg (by simpa using hy x hx), ih hx]

section Single

variable (items : t.items.Pairwise fun i j => i.address ≠ j.address)
  (functions : t.functions.Pairwise fun f g => f.start ≠ g.start)

include items in
theorem itemNameAt_of_mem {i : Item} (hi : i ∈ t.items) : t.itemNameAt i.address = i.name := by
  rw [itemNameAt, find?_key_of_mem items hi, Option.bind_some]

include functions in
theorem functionNameAt_of_mem {f : FunctionEntry} (hf : f ∈ t.functions) : t.functionNameAt f.start = f.name := by
  rw [functionNameAt, find?_key_of_mem functions hf, Option.bind_some]

include items functions in
/-- With one row of each kind at an address, only an item with the empty name hides anything, and that is the name of
the function. -/
theorem forall_not_hidesNames_iff : (∀ a, ¬ t.HidesNames a) ↔
    ∀ i ∈ t.items, i.name = some "" → ∀ f ∈ t.functions, f.start = i.address → f.name ∈ [none, some ""] := by
  constructor
  · intro hnone i hi hempty f hf hstart
    have hitem : t.itemNameAt i.address = some "" := (itemNameAt_of_mem items hi).trans hempty
    rcases hname : f.name with _ | n
    · simp
    · by_cases hn : n = ""
      · simp [hn]
      · exact absurd (.emptyItem ⟨n, .function f hf hstart hname hn⟩ hitem) (hnone i.address)
  · intro hempties a hhides
    rcases hhides with ⟨⟨n, hn⟩, hempty⟩ | ⟨⟨n, hn⟩, hbare, hempty⟩
    · obtain ⟨i, hi, rfl, hname⟩ := exists_of_itemNameAt hempty
      rcases hn with ⟨j, hj, haddress, hjname, hfilled⟩ | ⟨f, hf, hstart, hfname, hfilled⟩
      · rw [← haddress, itemNameAt_of_mem items hj, hjname, Option.some.injEq] at hempty
        exact hfilled hempty
      · have hf := hempties i hi hname f hf hstart
        simp [hfname, hfilled] at hf
    · rcases hn with ⟨j, hj, rfl, hjname, -⟩ | ⟨f, hf, rfl, hfname, hfilled⟩
      · rw [itemNameAt_of_mem items hj, hjname] at hbare
        cases hbare
      · rw [functionNameAt_of_mem functions hf, hfname] at hempty
        simp [hfilled] at hempty

end Single

end Snapshot

namespace Session

/-- What names should be: an address has one exactly where a row records one, and it is one of those. -/
structure FindsNames (t : Snapshot) (s : Session Image) : Prop where
  found_iff : ∀ a, (∃ n, (perform (.getName a) s).1 = .name (.ok n)) ↔ ∃ n, t.RecordsName a n
  recorded : ∀ a n, (perform (.getName a) s).1 = .name (.ok n) → t.RecordsName a n

/-- What they are: the name that is settled on, if it is not empty. -/
structure SettlesNames (t : Snapshot) (s : Session Image) : Prop where
  found_iff : ∀ a n, (perform (.getName a) s).1 = .name (.ok n) ↔
    (t.itemNameAt a).or (t.functionNameAt a) = some n ∧ n ≠ ""
  missing : ∀ a, (∀ n, (perform (.getName a) s).1 ≠ .name (.ok n)) →
    (perform (.getName a) s).1 = .name (.error (.notFound (.name a)))
  recorded : ∀ a n, (perform (.getName a) s).1 = .name (.ok n) → t.RecordsName a n

theorem findsNames_iff {t : Snapshot} {s : Session Image} (h : SettlesNames t s) :
    FindsNames t s ↔ ∀ a, ¬ t.HidesNames a := by
  have hfound : ∀ a n, (perform (.getName a) s).1 = .name (.ok n) ↔ t.nameAt a = some n ∧ n ≠ "" := by
    intro a n
    rw [h.found_iff, Snapshot.nameAt_eq]
  simp only [Snapshot.hidesNames_iff]
  constructor
  · rintro hnames a ⟨hrecorded, hnone⟩
    obtain ⟨n, hn⟩ := (hnames.found_iff a).2 hrecorded
    obtain ⟨hname, hfilled⟩ := (hfound a n).1 hn
    exact hfilled (hnone n hname)
  · intro hshown
    refine ⟨fun a => ⟨fun ⟨n, hn⟩ => ⟨n, h.recorded a n hn⟩, fun hrecorded => ?_⟩, h.recorded⟩
    by_contra hmissing
    refine hshown a ⟨hrecorded, fun n hn => ?_⟩
    by_contra hfilled
    exact hmissing ⟨n, (hfound a n).2 ⟨hn, hfilled⟩⟩

/-- What names are at every moment of every run, that they are as they should be exactly where nothing is hidden, and
when that is with one row of each kind at an address. -/
theorem names_run_iff {t : Snapshot} {stored : Stored} (accepted : t.load = .ok stored) (capacity : Nat)
    (ops : List Operation) :
    let s := (run (stored.session capacity) ops).2
    SettlesNames t s ∧ (FindsNames t s ↔ ∀ a, ¬ t.HidesNames a) ∧
    (t.items.Pairwise (fun i j => i.address ≠ j.address) → t.functions.Pairwise (fun f g => f.start ≠ g.start) →
      (FindsNames t s ↔ ∀ i ∈ t.items, i.name = some "" → ∀ f ∈ t.functions, f.start = i.address →
        f.name ∈ [none, some ""])) := by
  intro s
  have hview : s.view = stored.tables.view s.memory := view_eq (host_run _ ops)
  have hname : ∀ a, s.view.nameAt a = t.nameAt a := by
    intro a
    rw [hview]
    exact Snapshot.nameAt_of_load accepted a
  have hfound : ∀ a n, (perform (.getName a) s).1 = .name (.ok n) ↔ t.nameAt a = some n ∧ n ≠ "" := by
    intro a n
    change Answer.name (s.view.getName a) = _ ↔ _
    rw [Answer.name.injEq, View.getName_eq_ok_iff, hname]
  have hsettles : SettlesNames t s := by
    refine ⟨fun a n => ?_, fun a hnone => ?_, fun a n hn => ?_⟩
    · rw [hfound, Snapshot.nameAt_eq]
    · refine congrArg Answer.name (View.getName_eq_error fun n hn => ?_)
      exact hnone n (congrArg Answer.name hn)
    · obtain ⟨hn, hfilled⟩ := (hfound a n).1 hn
      exact Snapshot.recordsName_of_nameAt hn hfilled
  refine ⟨hsettles, findsNames_iff hsettles, fun items functions => ?_⟩
  rw [findsNames_iff hsettles, Snapshot.forall_not_hidesNames_iff items functions]

/-- A function with a name, and its first instruction with an empty one. -/
def emptyName : Snapshot :=
  { functions := [⟨0x1000, 0x1010, some "main"⟩], items := [⟨0x1000, 1, true, some "", none, none⟩] }

/-- The name of the function is recorded at its entry and not found there. -/
theorem emptyName_hides_function : emptyName.load = .ok ⟨emptyName, []⟩ ∧
    let s := (⟨emptyName, []⟩ : Stored).session 1024
    emptyName.RecordsName 0x1000 "main" ∧
      (perform (.getName 0x1000) s).1 = .name (.error (.notFound (.name 0x1000))) ∧ ¬ FindsNames emptyName s := by
  have accepted : emptyName.load = .ok ⟨emptyName, []⟩ :=
    Snapshot.load_eq_ok_iff.2 ⟨(Snapshot.flaw?_eq_none_iff emptyName).1 rfl, by simp [emptyName]⟩
  have hmain : emptyName.RecordsName 0x1000 "main" :=
    .function ⟨0x1000, 0x1010, some "main"⟩ (by decide) rfl rfl (by decide)
  refine ⟨accepted, hmain, rfl, fun hnames => ?_⟩
  obtain ⟨n, hn⟩ := (hnames.found_iff 0x1000).2 ⟨"main", hmain⟩
  cases hn

/-- An item without a name where a function with one starts, the other way round, and empty names on both. -/
def sparseNames : Snapshot :=
  { functions := [⟨0x2000, 0x2010, none⟩, ⟨0x1000, 0x1010, some "main"⟩, ⟨0x3000, 0x3000, some ""⟩]
    items := [⟨0x3000, 4, false, some "", none, none⟩, ⟨0x1000, 0, true, none, none, none⟩,
      ⟨0x2000, 1, true, some "start", none, none⟩] }

theorem names_run_iff_sparse : ∃ stored, sparseNames.load = .ok stored ∧
    let s := (run (stored.session 1) [.getName 0x3000, .clearCaches]).2
    FindsNames sparseNames s ∧ (perform (.getName 0x1000) s).1 = .name (.ok "main") ∧
      (perform (.getName 0x2000) s).1 = .name (.ok "start") := by
  have accepted := Snapshot.load_eq_ok_iff.2 ⟨(Snapshot.flaw?_eq_none_iff sparseNames).1 rfl, rfl⟩
  obtain ⟨hsettles, -, hsingle⟩ := names_run_iff accepted 1 [.getName 0x3000, .clearCaches]
  refine ⟨_, accepted, (hsingle (by decide) (by decide)).2 (by decide), ?_, ?_⟩
  · exact (hsettles.found_iff 0x1000 "main").2 (by decide)
  · exact (hsettles.found_iff 0x2000 "start").2 (by decide)

end Session
end BinAtlas
