import BinAtlas.Atlas
import BinAtlas.Proofs.Listing
import BinAtlas.Proofs.Session.ByteStore

/-! Variables. The head of the item around an address is looked up, and from there the code flag, the name, the
end and the type, each on its own. Where no two items share a place, all of them speak of the one item. But a name
is looked for among the functions as well, so an item without a name of its own and an address in no item are
variables where a function with a name starts. -/

namespace BinAtlas

namespace View

variable {v : View} {a : Address} {x : Variable}

/-- All that a variable says, looked up at its head. -/
def variableAt (v : View) (head : Address) (name : String) : Variable :=
  { address := head
    name
    size := v.sizeAt head
    dataType := (v.itemType head).map DataType.ofHost
    data := v.getBytes head (v.sizeAt head).toNat none }

theorem getVariable_eq (v : View) (a : Address) : v.getVariable a =
    if v.isCode (v.itemHead a) then .error (.notFound (.variable a)) else
      match v.name? (v.itemHead a) with
      | some name => .ok (v.variableAt (v.itemHead a) name)
      | none => .error (.notFound (.variable a)) := by
  simp only [getVariable]
  cases v.isCode (v.itemHead a) <;> rfl

theorem getVariable_eq_ok_iff : v.getVariable a = .ok x ↔ v.isCode (v.itemHead a) = false ∧
    (v.nameAt (v.itemHead a) = some x.name ∧ x.name ≠ "") ∧ x = v.variableAt (v.itemHead a) x.name := by
  have hname : v.name? (v.itemHead a) = some x.name ↔ v.nameAt (v.itemHead a) = some x.name ∧ x.name ≠ "" := by
    simp [name?, Option.filter_eq_some_iff]
  rw [← hname, getVariable_eq]
  cases v.isCode (v.itemHead a) with
  | true => simp
  | false =>
    cases v.name? (v.itemHead a) with
    | none => simp
    | some name =>
      rw [if_neg Bool.false_ne_true, and_iff_right rfl, Except.ok.injEq, Option.some.injEq]
      constructor
      · rintro rfl
        exact ⟨rfl, rfl⟩
      · rintro ⟨rfl, hx⟩
        exact hx.symm

/-- There is one way to fail, and it tells the address that was asked for. -/
theorem getVariable_eq_error (h : ∀ x, v.getVariable a ≠ .ok x) : v.getVariable a = .error (.notFound (.variable a)) := by
  rw [getVariable_eq] at h ⊢
  split_ifs at h ⊢
  · rfl
  · cases hname : v.name? (v.itemHead a) with
    | none => rfl
    | some name =>
      rw [hname] at h
      exact absurd rfl (h _)

end View

def Variable.places (x : Variable) : Set Nat := Set.Ico x.address.toNat (x.address.toNat + x.size.toNat)

/-- What a variable shows besides its name: where it is, how many bytes it has, their type, and what is there. -/
structure Variable.Shows (x : Variable) (v : View) (head : Address) (n : Nat) (type : Option DataType) : Prop where
  address : x.address = head
  size : x.size.toNat = n
  dataType : x.dataType = type
  data : x.data = v.getBytes head n none

theorem Variable.Shows.unique {x y : Variable} {v : View} {head : Address} {n : Nat} {type : Option DataType}
    (hx : x.Shows v head n type) (hy : y.Shows v head n type) (hname : x.name = y.name) : x = y := by
  have hsize : x.size = y.size := UInt64.toNat_inj.1 (hx.size.trans hy.size.symm)
  have haddress := hx.address.trans hy.address.symm
  have htype := hx.dataType.trans hy.dataType.symm
  have hdata := hx.data.trans hy.data.symm
  cases x
  cases y
  congr

theorem Variable.Shows.places {x : Variable} {v : View} {head : Address} {n : Nat} {type : Option DataType}
    (h : x.Shows v head n type) : x.places = Set.Ico head.toNat (head.toNat + n) := by
  rw [Variable.places, h.address, h.size]

namespace Snapshot

/-- The type of an item: that of the table, or one of the size of the item where the table has none of the name. -/
def typeOf (t : Snapshot) (i : Item) : Option DataType :=
  i.type.map fun name => .leaf name (((t.types.find? (·.name == name)).map (·.size)).getD i.size) false

/-- A data item around an address that has a name of its own, as a variable. -/
def NamedData (t : Snapshot) (v : View) (a : Address) (x : Variable) : Prop :=
  ∃ i ∈ t.items, a.toNat ∈ i.places ∧ i.isCode = false ∧ i.name = some x.name ∧ x.name ≠ "" ∧
    x.Shows v i.address (max i.size.toNat 1) (t.typeOf i)

/-- A variable with the name of a function: a data item with no name of its own, or an address in no item. -/
inductive BorrowsName (t : Snapshot) (v : View) (a : Address) (x : Variable) : Prop where
  | item (i : Item) (mem : i ∈ t.items) (around : a.toNat ∈ i.places) (data : i.isCode = false) (bare : i.name = none)
      (name : t.functionNameAt i.address = some x.name) (filled : x.name ≠ "")
      (shows : x.Shows v i.address (max i.size.toNat 1) (t.typeOf i))
  | gap (outside : ∀ i ∈ t.items, a.toNat ∉ i.places) (name : t.functionNameAt a = some x.name) (filled : x.name ≠ "")
      (shows : x.Shows v a (if a = Address.bad then 0 else 1) none)

/-- A name is the item's own or borrowed, not both. -/
theorem NamedData.not_borrowsName {t : Snapshot} {v : View} {a : Address} {x : Variable}
    (apart : Apart Item.places t.items) (h : t.NamedData v a x) : ¬ t.BorrowsName v a x := by
  obtain ⟨i, hi, ha, -, hown, -⟩ := h
  rintro (⟨j, hj, haj, -, hbare⟩ | ⟨houtside⟩)
  · obtain rfl := apart.eq_of_mem hi hj ha haj
    rw [hbare] at hown
    cases hown
  · exact houtside i hi ha

theorem NamedData.mem_places {t : Snapshot} {v : View} {a : Address} {x : Variable} (h : t.NamedData v a x) :
    a.toNat ∈ x.places := by
  obtain ⟨i, -, ha, -, -, -, hshows⟩ := h
  rw [hshows.places]
  exact ha

theorem BorrowsName.mem_places {t : Snapshot} {v : View} {a : Address} {x : Variable} (h : t.BorrowsName v a x)
    (hlast : a ≠ Address.bad) : a.toNat ∈ x.places := by
  cases h with
  | item i _ ha _ _ _ _ hshows =>
    rw [hshows.places]
    exact ha
  | gap _ _ _ hshows =>
    rw [hshows.places, if_neg hlast, Set.mem_Ico]
    omega

/-- Functions with a name start in items, and an item that one starts with is code or has a name of its own. -/
def ListsEntries (t : Snapshot) : Prop :=
  ∀ a name, t.functionNameAt a = some name → name ≠ "" →
    ∃ i ∈ t.items, a.toNat ∈ i.places ∧ (i.address = a → i.isCode = true ∨ i.name ≠ none)

theorem listsEntries_of_covers {t : Snapshot} (h : ∀ f ∈ t.functions, ∃ i ∈ t.items, i.covers f.start ∧
    (i.address = f.start → i.isCode = true ∨ i.name ≠ none)) : t.ListsEntries := by
  intro a name hname _
  obtain ⟨f, hfind, -⟩ := Option.bind_eq_some_iff.1 hname
  obtain rfl : f.start = a := by simpa using List.find?_some hfind
  obtain ⟨i, hi, hcov, hown⟩ := h f (List.mem_of_find?_eq_some hfind)
  exact ⟨i, hi, Item.covers_iff.1 hcov, hown⟩

theorem map_ofHost_itemType (s : Snapshot) (i : Item) :
    (i.type.map fun name => (s.namedType name).getD (.named name i.size)).map DataType.ofHost = s.typeOf i := by
  rw [Option.map_map, typeOf]
  apply Option.map_congr
  intro name _
  rw [Function.comp_apply, namedType]
  cases hfind : s.types.find? (·.name == name) with
  | none => rfl
  | some entry =>
    have hname : entry.name = name := by simpa using List.find?_some hfind
    rw [← hname]
    rfl

variable {t : Snapshot} {stored : Stored} (accepted : t.load = .ok stored) (m : Image) {a : Address} {i : Item}
  {x : Variable}

include accepted

theorem typeOf_of_load (i : Item) : stored.tables.typeOf i = t.typeOf i := by
  obtain ⟨-, rfl⟩ := load_eq_ok_iff.1 accepted
  rfl

theorem shows_item (apart : Apart Item.places t.items) (hi : i ∈ t.items) (name : String) :
    ((stored.tables.view m).variableAt i.address name).Shows (stored.tables.view m) i.address (max i.size.toNat 1)
      (t.typeOf i) := by
  have hfound := itemAt_address accepted apart hi
  have hsize := congrArg UInt64.toNat (sizeAt_of_some m hfound ((load_eq_ok_iff.1 accepted).1.items i hi))
  rw [i.toNat_extent] at hsize
  refine ⟨rfl, hsize, ?_, ?_⟩
  · rw [View.variableAt, itemType_of_some m hfound, map_ofHost_itemType, typeOf_of_load accepted]
  · rw [View.variableAt, hsize]

theorem shows_gap (gap : ∀ i ∈ t.items, a.toNat ∉ i.places) (name : String) :
    ((stored.tables.view m).variableAt a name).Shows (stored.tables.view m) a (if a = Address.bad then 0 else 1) none := by
  have hnone := (itemAt_eq_none_iff accepted).2 gap
  have hsize : ((stored.tables.view m).sizeAt a).toNat = if a = Address.bad then 0 else 1 := by
    rw [sizeAt_of_none m hnone]
    split_ifs <;> rfl
  refine ⟨rfl, hsize, ?_, ?_⟩
  · rw [View.variableAt, itemType_of_none m hnone]
    rfl
  · rw [View.variableAt, hsize]

theorem getVariable_of_item (apart : Apart Item.places t.items) (hi : i ∈ t.items) (ha : a.toNat ∈ i.places) :
    (stored.tables.view m).getVariable a = .ok x ↔
      i.isCode = false ∧ (i.name <|> t.functionNameAt i.address) = some x.name ∧ x.name ≠ "" ∧
        x.Shows (stored.tables.view m) i.address (max i.size.toNat 1) (t.typeOf i) := by
  have hshows := shows_item accepted m apart hi x.name
  have hname : (stored.tables.view m).nameAt i.address = (i.name <|> t.functionNameAt i.address) :=
    nameAt_address accepted apart hi
  rw [View.getVariable_eq_ok_iff, itemHead_of_some m ((itemAt_eq_some_iff accepted apart).2 ⟨hi, ha⟩),
    isCode_of_some m (itemAt_address accepted apart hi), hname, and_assoc]
  refine and_congr_right fun _ => and_congr_right fun _ => and_congr_right fun _ => ?_
  exact ⟨fun hx => by rw [hx]; exact hshows, fun hx => hx.unique hshows rfl⟩

theorem getVariable_of_gap (gap : ∀ i ∈ t.items, a.toNat ∉ i.places) :
    (stored.tables.view m).getVariable a = .ok x ↔
      t.functionNameAt a = some x.name ∧ x.name ≠ "" ∧
        x.Shows (stored.tables.view m) a (if a = Address.bad then 0 else 1) none := by
  have hnone := (itemAt_eq_none_iff accepted).2 gap
  have hshows := shows_gap accepted m gap x.name
  have hname : (stored.tables.view m).nameAt a = t.functionNameAt a := nameAt_gap accepted gap
  rw [View.getVariable_eq_ok_iff, itemHead_of_none m hnone, isCode_of_none m hnone, hname, and_iff_right rfl,
    and_assoc]
  refine and_congr_right fun _ => and_congr_right fun _ => ?_
  exact ⟨fun hx => by rw [hx]; exact hshows, fun hx => hx.unique hshows rfl⟩

theorem getVariable_iff (apart : Apart Item.places t.items) : (stored.tables.view m).getVariable a = .ok x ↔
    t.NamedData (stored.tables.view m) a x ∨ t.BorrowsName (stored.tables.view m) a x := by
  rcases Item.around_or_gap t.items a with ⟨i, hi, ha⟩ | gap
  · rw [getVariable_of_item accepted m apart hi ha]
    constructor
    · rintro ⟨hdata, hname, hfilled, hshows⟩
      cases hown : i.name with
      | some name =>
        rw [hown] at hname
        exact .inl ⟨i, hi, ha, hdata, hown.trans hname, hfilled, hshows⟩
      | none =>
        rw [hown] at hname
        exact .inr (.item i hi ha hdata hown hname hfilled hshows)
    · rintro (⟨j, hj, haj, hdata, hown, hfilled, hshows⟩ | hborrows)
      · obtain rfl := apart.eq_of_mem hi hj ha haj
        exact ⟨hdata, by rw [hown]; rfl, hfilled, hshows⟩
      · cases hborrows with
        | item j hj haj hdata hbare hname hfilled hshows =>
          obtain rfl := apart.eq_of_mem hi hj ha haj
          exact ⟨hdata, by rw [hbare]; exact hname, hfilled, hshows⟩
        | gap houtside => exact absurd ha (houtside i hi)
  · rw [getVariable_of_gap accepted m gap]
    constructor
    · rintro ⟨hname, hfilled, hshows⟩
      exact .inr (.gap gap hname hfilled hshows)
    · rintro (⟨i, hi, ha, -⟩ | hborrows)
      · exact absurd ha (gap i hi)
      · cases hborrows with
        | item i hi ha => exact absurd ha (gap i hi)
        | gap _ hname hfilled hshows => exact ⟨hname, hfilled, hshows⟩

/-- Nothing borrows a name exactly where the listing has the entries of all functions with one. -/
theorem forall_not_borrowsName_iff (apart : Apart Item.places t.items) :
    (∀ a x, ¬ t.BorrowsName (stored.tables.view m) a x) ↔ t.ListsEntries := by
  constructor
  · intro hnone a name hname hfilled
    by_contra hunlisted
    rcases Item.around_or_gap t.items a with ⟨i, hi, ha⟩ | gap
    · have hbare : i.address = a ∧ i.isCode = false ∧ i.name = none := by
        by_contra hown
        refine hunlisted ⟨i, hi, ha, fun haddress => ?_⟩
        cases hcode : i.isCode
        · exact .inr fun hbare => hown ⟨haddress, hcode, hbare⟩
        · exact .inl rfl
      obtain ⟨rfl, hdata, hbare⟩ := hbare
      exact hnone _ _ (.item i hi ha hdata hbare hname hfilled (shows_item accepted m apart hi name))
    · exact hnone _ _ (.gap gap hname hfilled (shows_gap accepted m gap name))
  · intro hlists a x hborrows
    cases hborrows with
    | item i hi ha hdata hbare hname hfilled =>
      obtain ⟨j, hj, hij, hown⟩ := hlists i.address x.name hname hfilled
      obtain rfl := apart.eq_of_mem hi hj i.address_mem_places hij
      rcases hown rfl with hcode | hnamed
      · exact Bool.false_ne_true (hdata.symm.trans hcode)
      · exact hnamed hbare
    | gap houtside hname hfilled =>
      obtain ⟨j, hj, haj, -⟩ := hlists a x.name hname hfilled
      exact houtside j hj haj

/-- Variables are named data exactly where nothing borrows a name. -/
theorem getVariable_iff_namedData (apart : Apart Item.places t.items) :
    (∀ a x, (stored.tables.view m).getVariable a = .ok x ↔ t.NamedData (stored.tables.view m) a x) ↔ t.ListsEntries := by
  rw [← forall_not_borrowsName_iff accepted m apart]
  refine forall₂_congr fun a x => ?_
  rw [getVariable_iff accepted m apart, or_iff_left_iff_imp]
  refine ⟨fun h hborrows => ?_, fun h hborrows => absurd hborrows h⟩
  exact (h hborrows).not_borrowsName apart hborrows

end Snapshot

namespace Session

/-- What a session finds as a variable is named data, or else has the name of a function only. It has room for the
address that was asked for, unless that is the last one of all, and is the same from all addresses of an item. -/
structure FindsVariables (t : Snapshot) (s : Session Image) : Prop where
  found : ∀ a x, (perform (.getVariable a) s).1 = .variable (.ok x) ↔
    t.NamedData s.view a x ∨ t.BorrowsName s.view a x
  missing : ∀ a, (∀ x, ¬ t.NamedData s.view a x ∧ ¬ t.BorrowsName s.view a x) →
    (perform (.getVariable a) s).1 = .variable (.error (.notFound (.variable a)))
  around : ∀ a x, a ≠ Address.bad → (perform (.getVariable a) s).1 = .variable (.ok x) →
    a.toNat ∈ x.places
  same : ∀ i ∈ t.items, ∀ a b x, a.toNat ∈ i.places → b.toNat ∈ i.places →
    (perform (.getVariable a) s).1 = .variable (.ok x) → (perform (.getVariable b) s).1 = .variable (.ok x)

theorem perform_getVariable_iff {s : Session Image} {a : Address} {x : Variable} :
    (perform (.getVariable a) s).1 = .variable (.ok x) ↔ s.view.getVariable a = .ok x := by
  change Answer.variable (s.view.getVariable a) = _ ↔ _
  rw [Answer.variable.injEq]

theorem findsVariables_of_view {t : Snapshot} {stored : Stored} (accepted : t.load = .ok stored)
    (apart : Apart Item.places t.items) {s : Session Image} (h : s.view = stored.tables.view s.memory) :
    FindsVariables t s := by
  have hfound : ∀ a x, s.view.getVariable a = .ok x ↔ t.NamedData s.view a x ∨ t.BorrowsName s.view a x := by
    intro a x
    rw [h]
    exact Snapshot.getVariable_iff accepted s.memory apart
  constructor
  case found =>
    intro a x
    rw [perform_getVariable_iff, hfound]
  case missing =>
    intro a hnone
    refine congrArg Answer.variable (View.getVariable_eq_error fun x hx => ?_)
    rcases (hfound a x).1 hx with hnamed | hborrows
    · exact (hnone x).1 hnamed
    · exact (hnone x).2 hborrows
  case around =>
    intro a x hlast hx
    rw [perform_getVariable_iff, hfound] at hx
    rcases hx with hnamed | hborrows
    · exact hnamed.mem_places
    · exact hborrows.mem_places hlast
  case same =>
    intro i hi a b x ha hb
    rw [perform_getVariable_iff, perform_getVariable_iff, h,
      Snapshot.getVariable_of_item accepted s.memory apart hi ha,
      Snapshot.getVariable_of_item accepted s.memory apart hi hb]
    exact id

/-- What variables are at every moment of every run, and that they are named data exactly where the listing has the
entries of all functions with a name. -/
theorem variables_run_iff {t : Snapshot} {stored : Stored} (accepted : t.load = .ok stored)
    (apart : Apart Item.places t.items) (capacity : Nat) (ops : List Operation) :
    let s := (run (stored.session capacity) ops).2
    FindsVariables t s ∧
    ((∀ a x, (perform (.getVariable a) s).1 = .variable (.ok x) ↔ t.NamedData s.view a x) ↔ t.ListsEntries) := by
  intro s
  have hview : s.view = stored.tables.view s.memory := view_eq (host_run _ ops)
  refine ⟨findsVariables_of_view accepted apart hview, ?_⟩
  simp only [perform_getVariable_iff, hview]
  exact Snapshot.getVariable_iff_namedData accepted s.memory apart

/-- A function with a name and no listing. -/
def bareEntry : Snapshot := { functions := [⟨0x1000, 0x1010, some "main"⟩] }

/-- The entry of the function is a variable of one byte, although there is no data at all. -/
theorem bareEntry_variable : bareEntry.load = .ok ⟨bareEntry, []⟩ ∧
    let s := (⟨bareEntry, []⟩ : Stored).session 1024
    (perform (.getVariable 0x1000) s).1 =
        .variable (.ok ⟨0x1000, "main", 1, none, .error (.notFound (.bytes 1 0x1000))⟩) ∧
      ¬ ∀ a x, (perform (.getVariable a) s).1 = .variable (.ok x) ↔ bareEntry.NamedData s.view a x := by
  have accepted : bareEntry.load = .ok ⟨bareEntry, []⟩ :=
    Snapshot.load_eq_ok_iff.2 ⟨(Snapshot.flaw?_eq_none_iff bareEntry).1 rfl, by simp [bareEntry]⟩
  refine ⟨accepted, rfl, fun hnamed => ?_⟩
  obtain ⟨i, hi, -⟩ := (hnamed 0x1000 _).1 rfl
  exact List.not_mem_nil hi

/-- Functions that start with code, with data that has its own name and within data; data without a name, and with
an empty one. -/
def listedEntries : Snapshot :=
  { memory := [⟨0x2000, #[1, 2, 3, 4]⟩]
    functions := [⟨0x2002, 0x2004, some "inner"⟩, ⟨0x1000, 0x1010, some "main"⟩, ⟨0x2000, 0x2001, some "outer"⟩]
    items := [⟨0x2000, 4, false, some "table", some "PAIR", none⟩, ⟨0x1000, 0, true, none, none, none⟩,
      ⟨0x3000, 8, false, none, none, none⟩, ⟨0x1001, 1, false, some "", none, none⟩]
    types := [⟨"PAIR", 2⟩] }

/-- Named data with a type of the table, asked for at the start of a function within it. -/
theorem variables_run_iff_listedEntries : ∃ stored, listedEntries.load = .ok stored ∧
    let s := (run (stored.session 1) [.writeBytes 0x2000 [9], .getVariable 0x2000]).2
    (∀ a x, (perform (.getVariable a) s).1 = .variable (.ok x) ↔ listedEntries.NamedData s.view a x) ∧
      ∃ x, (perform (.getVariable 0x2002) s).1 = .variable (.ok x) ∧ x.address = 0x2000 ∧ x.name = "table" ∧
        x.size = 4 ∧ x.dataType = some (.leaf "PAIR" 2 false) := by
  have accepted := Snapshot.load_eq_ok_iff.2 ⟨(Snapshot.flaw?_eq_none_iff listedEntries).1 rfl, rfl⟩
  have apart : Apart Item.places listedEntries.items := by
    simp [Apart, Item.places, listedEntries, Set.Ico_disjoint_Ico]
  have hlists : listedEntries.ListsEntries := Snapshot.listsEntries_of_covers (by decide)
  refine ⟨_, accepted, ?_⟩
  intro s
  have hnamed := (variables_run_iff accepted apart 1 [.writeBytes 0x2000 [9], .getVariable 0x2000]).2.2 hlists
  have htable : listedEntries.NamedData s.view 0x2002
      ⟨0x2000, "table", 4, some (.leaf "PAIR" 2 false), s.view.getBytes 0x2000 4 none⟩ :=
    ⟨⟨0x2000, 4, false, some "table", some "PAIR", none⟩, by decide, by simp [Item.places], rfl, rfl, by decide,
      ⟨rfl, rfl, rfl, rfl⟩⟩
  exact ⟨hnamed, _, (hnamed _ _).2 htable, rfl, rfl, rfl, rfl⟩

end Session
end BinAtlas
