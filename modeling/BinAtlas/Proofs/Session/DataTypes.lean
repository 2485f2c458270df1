import BinAtlas.Proofs.Session.ByteStore
import BinAtlas.Proofs.Trim
import BinAtlas.Proofs.Upper

/-! Names of types. Only two things of a name count: its key, which is the part without blanks and stars around it in
upper case, and whether its last character is a star. The name that a type is shown by has the same key and the same
end as any name it was found by, so it leads to that type again. -/

namespace BinAtlas

/-- The type itself, or the one that a pointer leads to. -/
def DataType.base : DataType → DataType
  | .leaf n s p => .leaf n s p
  | .link _ _ _ target => target

namespace View

variable {name before after : String}

/-- A name without the blanks and stars at its end. -/
def withoutEnd (name : String) : String := String.ofList (name.toList.rdropWhile isTypeMark)

theorem toList_typeKey (name : String) :
    (typeKey name).toList = (Text.trimBy isTypeMark name.toList).flatMap Text.upperChar := by
  rw [typeKey, Text.toList_upper, String.toList_ofList]

theorem isTypeMark_iff {c : Char} : isTypeMark c ↔ c = ' ' ∨ c = '*' := by simp [isTypeMark]

/-- In the capital of a character is a blank or a star only if it was one. -/
theorem not_isTypeMark_of_mem_upperChar (c d : Char) (hc : ¬ isTypeMark c) (hd : d ∈ Text.upperChar c) :
    ¬ isTypeMark d := by
  rcases (Text.mem_upperChar hd).2 with rfl | hlt
  · exact hc
  · rw [isTypeMark_iff]
    rintro (rfl | rfl) <;> simp at hlt

theorem bare_typeKey (name : String) : Text.Bare isTypeMark (typeKey name).toList := by
  rw [toList_typeKey]
  exact (Text.bare_trimBy isTypeMark name.toList).flatMap Text.upperChar_ne_nil not_isTypeMark_of_mem_upperChar

theorem typeKey_typeKey (name : String) : typeKey (typeKey name) = typeKey name := by
  rw [typeKey, Text.trimBy_of_bare (bare_typeKey name), String.ofList_toList, typeKey, Text.upper_upper]

theorem typeKey_surround (hbefore : ∀ c ∈ before.toList, isTypeMark c) (name : String)
    (hafter : ∀ c ∈ after.toList, isTypeMark c) : typeKey (before ++ name ++ after) = typeKey name := by
  rw [typeKey, String.toList_append, String.toList_append, Text.trimBy_surround hbefore hafter, typeKey]

theorem typeKey_withoutEnd (name : String) : typeKey (withoutEnd name) = typeKey name := by
  rw [typeKey, withoutEnd, String.toList_ofList, Text.trimBy_rdropWhile, typeKey]

theorem typeKey_append_star (name : String) : typeKey (typeKey name ++ " *") = typeKey name := by
  have hmarks : ∀ c ∈ " *".toList, isTypeMark c := by simp [isTypeMark]
  have h : typeKey ("" ++ typeKey name ++ " *") = typeKey (typeKey name) := typeKey_surround (by simp) _ hmarks
  rw [String.empty_append] at h
  rw [h, typeKey_typeKey]

theorem asksPointer_iff : asksPointer name ↔ name.toList.getLast? = some '*' := beq_iff_eq

theorem asksPointer_eq_false (h : Text.Bare isTypeMark name.toList) : asksPointer name = false := by
  rw [Bool.eq_false_iff, ne_eq, asksPointer_iff]
  intro hstar
  exact h.last '*' hstar rfl

theorem asksPointer_typeKey (name : String) : asksPointer (typeKey name) = false := asksPointer_eq_false (bare_typeKey name)

theorem asksPointer_withoutEnd (name : String) : asksPointer (withoutEnd name) = false := by
  rw [Bool.eq_false_iff, ne_eq, asksPointer_iff, withoutEnd, String.toList_ofList]
  intro hstar
  obtain ⟨hne, hlast⟩ := List.mem_getLast?_eq_getLast hstar
  exact List.rdropWhile_last_not isTypeMark _ hne (hlast ▸ rfl)

theorem asksPointer_append_star (name : String) : asksPointer (name ++ " *") = true := by
  rw [asksPointer_iff, String.toList_append, List.getLast?_append_of_ne_nil _ (by decide)]
  rfl

end View

namespace Snapshot

variable {s : Snapshot} {m : Image} {name : String} {d : DataType}

/-- An entry of the table as a type, or the pointer to it. -/
def shownType (s : Snapshot) (e : TypeEntry) (pointer : Bool) : DataType :=
  DataType.ofHost (if pointer then s.pointerTo (.named e.name e.size) else .named e.name e.size)

/-- The first entry of a name. -/
def typeEntry? (s : Snapshot) (name : String) : Option TypeEntry := s.types.find? (·.name == name)

theorem getDataType_eq (s : Snapshot) (m : Image) (name : String) : (s.view m).getDataType name =
    match s.typeEntry? (View.typeKey name) with
    | none => .error (.notFound (.dataType (View.typeKey name)))
    | some e => .ok (s.shownType e (View.asksPointer name)) := by
  have hnamed : (s.view m).namedType (View.typeKey name) =
      (s.typeEntry? (View.typeKey name)).map fun e => .named e.name e.size := rfl
  rw [View.getDataType, hnamed]
  rcases s.typeEntry? (View.typeKey name) with _ | e <;> rfl

theorem getDataType_eq_ok_iff : (s.view m).getDataType name = .ok d ↔
    ∃ e, s.typeEntry? (View.typeKey name) = some e ∧ d = s.shownType e (View.asksPointer name) := by
  rw [getDataType_eq]
  rcases s.typeEntry? (View.typeKey name) with _ | e <;> simp [eq_comm]

theorem isPointer_shownType (s : Snapshot) (e : TypeEntry) (pointer : Bool) :
    (s.shownType e pointer).isPointer = pointer := by
  cases pointer <;> rfl

theorem base_shownType (s : Snapshot) (e : TypeEntry) (pointer : Bool) :
    (s.shownType e pointer).base = s.shownType e false := by
  cases pointer <;> rfl

theorem target?_shownType (s : Snapshot) (e : TypeEntry) (pointer : Bool) :
    (s.shownType e pointer).target? = if pointer then some (s.shownType e false) else none := by
  cases pointer <;> rfl

/-- The name of a type that was found has the key and the end of the name it was found by. -/
theorem same_name_shownType {e : TypeEntry} (h : s.typeEntry? (View.typeKey name) = some e) :
    View.typeKey (s.shownType e (View.asksPointer name)).name = View.typeKey name ∧
      View.asksPointer (s.shownType e (View.asksPointer name)).name = View.asksPointer name := by
  have hname : e.name = View.typeKey name := by simpa using List.find?_some h
  cases hend : View.asksPointer name with
  | true =>
    have hshown : (s.shownType e true).name = View.typeKey name ++ " *" := by rw [← hname]; rfl
    rw [hshown]
    exact ⟨View.typeKey_append_star name, View.asksPointer_append_star _⟩
  | false =>
    have hshown : (s.shownType e false).name = View.typeKey name := hname
    rw [hshown]
    exact ⟨View.typeKey_typeKey name, View.asksPointer_typeKey name⟩

end Snapshot

namespace Session

/-- What is found under a name. -/
def FindsType (s : Session Image) (name : String) (d : DataType) : Prop :=
  (perform (.getDataType name) s).1 = .dataType (.ok d)

/-- What a session says of the names of types, where `t` is the document. -/
structure NamesTypes (t : Snapshot) (s : Session Image) : Prop where
  /-- A name of the table that is a key is found. -/
  listed : ∀ e ∈ t.types, View.typeKey e.name = e.name → ∃ size, FindsType s e.name (.leaf e.name size false)
  canonical : ∀ name d, FindsType s name d → FindsType s d.name d
  isPointer_iff : ∀ name d, FindsType s name d → (d.isPointer ↔ name.toList.getLast? = some '*')
  pointer : ∀ name d, FindsType s name d → d.isPointer → ∃ target, d.target? = some target ∧
    FindsType s (View.withoutEnd name) target
  plain : ∀ name d, FindsType s name d → ¬ d.isPointer → d.target? = none
  /-- Blanks and stars around a name change nothing but whether a pointer is found. -/
  surrounded : ∀ before name after, (∀ c ∈ before.toList, c = ' ' ∨ c = '*') → (∀ c ∈ after.toList, c = ' ' ∨ c = '*') →
    (∀ d, FindsType s name d → ∃ d', FindsType s (before ++ name ++ after) d' ∧ d'.base = d.base ∧
      (d'.isPointer = d.isPointer → d' = d)) ∧
    ∀ e, (perform (.getDataType name) s).1 = .dataType (.error e) →
      (perform (.getDataType (before ++ name ++ after)) s).1 = .dataType (.error e)

theorem perform_getDataType (s : Session Image) (name : String) :
    (perform (.getDataType name) s).1 = .dataType (s.view.getDataType name) := rfl

section View

variable {tables : Snapshot} {s : Session Image} (hview : s.view = tables.view s.memory) {name : String} {d : DataType}

include hview

theorem findsType_iff : FindsType s name d ↔
    ∃ e, tables.typeEntry? (View.typeKey name) = some e ∧ d = tables.shownType e (View.asksPointer name) := by
  rw [FindsType, perform_getDataType, hview, Answer.dataType.injEq, Snapshot.getDataType_eq_ok_iff]

theorem missesType_iff {e : Error} : (perform (.getDataType name) s).1 = .dataType (.error e) ↔
    tables.typeEntry? (View.typeKey name) = none ∧ e = .notFound (.dataType (View.typeKey name)) := by
  rw [perform_getDataType, hview, Answer.dataType.injEq, Snapshot.getDataType_eq]
  rcases tables.typeEntry? (View.typeKey name) with _ | e <;> simp [eq_comm]

end View

/-- The names of types at every moment of every run. -/
theorem namesTypes_run {t : Snapshot} {stored : Stored} (accepted : t.load = .ok stored) (capacity : Nat)
    (ops : List Operation) : NamesTypes t (run (stored.session capacity) ops).2 := by
  have hview := view_eq (host_run (stored.session capacity) ops)
  have htypes : stored.tables.types = t.types := by
    obtain ⟨-, rfl⟩ := Snapshot.load_eq_ok_iff.1 accepted
    rfl
  generalize (run (stored.session capacity) ops).2 = s at *
  have hfinds : ∀ {name d}, FindsType s name d ↔ ∃ e, stored.tables.typeEntry? (View.typeKey name) = some e ∧
      d = stored.tables.shownType e (View.asksPointer name) := findsType_iff hview
  constructor
  case listed =>
    intro e he hkey
    have hsome : (stored.tables.typeEntry? e.name).isSome :=
      List.find?_isSome.2 ⟨e, htypes ▸ he, beq_self_eq_true e.name⟩
    obtain ⟨e', he'⟩ := Option.isSome_iff_exists.1 hsome
    have hname : e'.name = e.name := by simpa using List.find?_some he'
    have hend := View.asksPointer_typeKey e.name
    rw [hkey] at hend
    refine ⟨e'.size, hfinds.2 ⟨e', by rw [hkey, he'], ?_⟩⟩
    rw [hend, ← hname]
    rfl
  case canonical =>
    intro name d hd
    obtain ⟨e, he, rfl⟩ := hfinds.1 hd
    obtain ⟨hkey, hend⟩ := Snapshot.same_name_shownType he
    exact hfinds.2 ⟨e, by rw [hkey, he], by rw [hend]⟩
  case isPointer_iff =>
    intro name d hd
    obtain ⟨e, -, rfl⟩ := hfinds.1 hd
    rw [Snapshot.isPointer_shownType, View.asksPointer_iff]
  case pointer =>
    intro name d hd hpointer
    obtain ⟨e, he, rfl⟩ := hfinds.1 hd
    rw [Snapshot.isPointer_shownType] at hpointer
    refine ⟨stored.tables.shownType e false, ?_, hfinds.2 ⟨e, ?_, ?_⟩⟩
    · rw [Snapshot.target?_shownType, if_pos hpointer]
    · rw [View.typeKey_withoutEnd, he]
    · rw [View.asksPointer_withoutEnd]
  case plain =>
    intro name d hd hplain
    obtain ⟨e, -, rfl⟩ := hfinds.1 hd
    rw [Snapshot.isPointer_shownType] at hplain
    rw [Snapshot.target?_shownType, if_neg hplain]
  case surrounded =>
    intro before name after hbefore hafter
    simp only [← View.isTypeMark_iff] at hbefore hafter
    have hkey := View.typeKey_surround hbefore name hafter
    constructor
    · intro d hd
      obtain ⟨e, he, rfl⟩ := hfinds.1 hd
      refine ⟨_, hfinds.2 ⟨e, by rw [hkey, he], rfl⟩, ?_, ?_⟩
      · rw [Snapshot.base_shownType, Snapshot.base_shownType]
      · rw [Snapshot.isPointer_shownType, Snapshot.isPointer_shownType]
        intro hend
        rw [hend]
    · intro e he
      rw [missesType_iff hview] at he ⊢
      rw [hkey]
      exact he

/-- A name that is no key, two entries of one name, and the empty name. -/
def crampedTypes : Snapshot :=
  { bitness := 32, types := [⟨"dword", 4⟩, ⟨"STRASSE", 6⟩, ⟨"", 1⟩, ⟨"STRASSE", 7⟩] }

/-- A pointer found by a name whose capital is longer than it is, and found again by its own. -/
theorem namesTypes_run_cramped : ∃ stored, crampedTypes.load = .ok stored ∧
    let s := (run (stored.session 0) [.getDataType "dword"]).2
    NamesTypes crampedTypes s ∧ (∃ size, FindsType s "" (.leaf "" size false)) ∧
      ∃ d, FindsType s " *straße* *" d ∧ d.base = .leaf "STRASSE" 6 false ∧ d.isPointer ∧ FindsType s d.name d := by
  obtain ⟨stored, accepted, htypes⟩ : ∃ stored, crampedTypes.load = .ok stored ∧ stored.tables.types = crampedTypes.types :=
    ⟨_, Snapshot.load_eq_ok_iff.2 ⟨(Snapshot.flaw?_eq_none_iff crampedTypes).1 rfl, rfl⟩, rfl⟩
  refine ⟨stored, accepted, ?_⟩
  intro s
  have hnames : NamesTypes crampedTypes s := namesTypes_run accepted 0 [.getDataType "dword"]
  have hfound : FindsType s "straße" (.leaf "STRASSE" 6 false) := by
    have hkey : View.typeKey "straße" = "STRASSE" := by decide +kernel
    refine (findsType_iff (view_eq (host_run (stored.session 0) _))).2 ⟨⟨"STRASSE", 6⟩, ?_, rfl⟩
    rw [hkey, Snapshot.typeEntry?, htypes]
    rfl
  obtain ⟨d, hd, hbase, -⟩ := (hnames.surrounded " *" "straße" "* *" (by simp) (by simp)).1 _ hfound
  have hpointer : d.isPointer := (hnames.isPointer_iff _ d hd).2 (by decide)
  exact ⟨hnames, hnames.listed ⟨"", 1⟩ (by decide) (by decide +kernel), d, hd, hbase, hpointer, hnames.canonical _ d hd⟩

end Session
end BinAtlas
