import BinAtlas.Json.Document
import BinAtlas.Proofs.Address
import Mathlib.Data.List.Forall2

/-! Documents written shorter. A field may be left out where it holds what stands for it when it is
missing; a reader that knows what stands for each field then reads the same record. -/

namespace BinAtlas

/-- The second list of fields is the first one without some fields that hold what `missing` says of their
names; the values of those that stay may be written shorter, each as `inner` says of its name. -/
inductive Fields.Abridged (missing : Fields Json) (inner : String → Json → Json → Prop) :
    Fields Json → Fields Json → Prop
  | nil : Abridged missing inner [] []
  | keep {name : String} {d d' : Json} {f g : Fields Json} (value : inner name d d')
    (rest : Abridged missing inner f g) : Abridged missing inner ((name, d) :: f) ((name, d') :: g)
  | drop {name : String} {d : Json} {f g : Fields Json} (default : missing.lookup name = some d)
    (rest : Abridged missing inner f g) : Abridged missing inner ((name, d) :: f) g

namespace Json

/-- The second document is the first one with fields left out. -/
def Abridged (missing : Fields Json) (inner : String → Json → Json → Prop) (d d' : Json) : Prop :=
  ∃ f g, d = .object f ∧ d' = .object g ∧ Fields.Abridged missing inner f g

/-- The rows of the second document are those of the first, each written shorter. -/
def RowsAbridged (row : Json → Json → Prop) (d d' : Json) : Prop :=
  ∃ rows rows', d = .list rows ∧ d' = .list rows' ∧ List.Forall₂ row rows rows'

end Json

namespace Fields

variable {missing f g : Fields Json} {inner : String → Json → Json → Prop}

theorem Abridged.refl (h : ∀ p ∈ f, inner p.1 p.2 p.2) : Abridged missing inner f f := by
  induction f with
  | nil => exact .nil
  | cons p f ih =>
    obtain ⟨hfirst, hrest⟩ := List.forall_mem_cons.1 h
    exact .keep hfirst (ih hrest)

theorem Abridged.names_sublist (h : Abridged missing inner f g) : (g.map Prod.fst).Sublist (f.map Prod.fst) := by
  induction h with
  | nil => exact .slnil
  | keep _ _ ih => exact ih.cons_cons _
  | drop _ _ ih => exact ih.cons _

theorem lookup_eq_none {name : String} (h : name ∉ g.map Prod.fst) : g.lookup name = none := by
  rw [List.lookup_eq_none_iff]
  intro p hp
  exact bne_iff_ne.2 fun he => h (he ▸ List.mem_map_of_mem hp)

/-- A field that is written is there in some form, or it holds what stands for it. -/
theorem Abridged.lookup (h : Abridged missing inner f g) (hnodup : (f.map Prod.fst).Nodup) {name : String} {d : Json}
    (hd : f.lookup name = some d) :
    (∃ d', g.lookup name = some d' ∧ inner name d d') ∨ g.lookup name = none ∧ missing.lookup name = some d := by
  induction h with
  | nil => cases hd
  | @keep key e e' f g hvalue _ ih =>
    by_cases hk : name = key
    · subst hk
      obtain rfl : e = d := by simpa [List.lookup_cons] using hd
      exact .inl ⟨e', by simp, hvalue⟩
    · rw [List.lookup_cons, beq_false_of_ne hk] at hd ⊢
      exact ih (List.nodup_cons.1 hnodup).2 hd
  | @drop key e f g hdefault hrest ih =>
    by_cases hk : name = key
    · subst hk
      obtain rfl : e = d := by simpa [List.lookup_cons] using hd
      have hgone : name ∉ g.map Prod.fst := fun hmem => (List.nodup_cons.1 hnodup).1 (hrest.names_sublist.subset hmem)
      exact .inr ⟨lookup_eq_none hgone, hdefault⟩
    · rw [List.lookup_cons, beq_false_of_ne hk] at hd
      exact ih (List.nodup_cons.1 hnodup).2 hd

/-- All of the fields are known, and none is there twice. -/
theorem select?_eq_some {names : List String} (hsub : ∀ name ∈ g.map Prod.fst, name ∈ names)
    (hnodup : (g.map Prod.fst).Nodup) : select? names g = some g := by
  induction g with
  | nil => rfl
  | cons p g ih =>
    obtain ⟨key, d⟩ := p
    obtain ⟨hkey, hnodup⟩ := List.nodup_cons.1 hnodup
    obtain ⟨hfirst, hsub⟩ := List.forall_mem_cons.1 hsub
    have hcontains : names.contains key = true := List.contains_iff_mem.2 hfirst
    simp only [select?, ih hsub hnodup, lookup_eq_none hkey, hcontains, Option.bind_eq_bind, Option.bind_some, if_true]
    rfl

section Read

variable {α : Type} {d : Json} {value? : Json → Option α} {a : α} (h : Abridged missing inner f g)
  (hnodup : (f.map Prod.fst).Nodup) (name : String) (hd : f.lookup name = some d)
  (hread : ∀ d', inner name d d' → value? d' = some a)

include h hnodup hd hread

/-- A field that nothing stands for is there. -/
theorem Abridged.required (hstays : missing.lookup name = none) : g.required name value? = some a := by
  unfold Fields.required
  rcases h.lookup hnodup hd with ⟨d', hd', hinner⟩ | ⟨-, hmissing⟩
  · rw [hd', Option.bind_some, hread d' hinner]
  · rw [hstays] at hmissing
    cases hmissing

/-- What stands for a field is what its value would be read as. -/
theorem Abridged.orElse {default : α} (hself : inner name d d)
    (hdefault : (missing.lookup name).bind value? = some default) : g.orElse name value? default = some a := by
  unfold Fields.orElse
  rcases h.lookup hnodup hd with ⟨d', hd', hinner⟩ | ⟨hgone, hmissing⟩
  · rw [hd']
    exact hread d' hinner
  · rw [hmissing, Option.bind_some] at hdefault
    rw [hgone]
    exact hdefault.symm.trans (hread d hself)

end Read

end Fields

namespace Json

open Document

variable {α : Type} {encode : α → Json} {value? : Json → Option α}

theorem Abridged.object {missing f : Fields Json} {inner : String → Json → Json → Prop} {d : Json}
    (h : Abridged missing inner (.object f) d) :
    ∃ g : Fields Json, d = .object g ∧ Fields.Abridged missing inner f g := by
  obtain ⟨_, g, hf, rfl, hg⟩ := h
  cases hf
  exact ⟨g, rfl, hg⟩

/-- The fields that are left are those of the record. -/
theorem fields?_object {missing f g : Fields Json} {inner : String → Json → Json → Prop}
    (h : Fields.Abridged missing inner f g) (hnodup : (f.map Prod.fst).Nodup) :
    Document.fields? (f.map Prod.fst) (Json.object g) = some g :=
  Fields.select?_eq_some (fun _ hname => h.names_sublist.subset hname) (hnodup.sublist h.names_sublist)

/-- A reading goes on with what was read. -/
theorem read_then {β : Type} {x : Option α} {f : α → Option β} {a : α} {b : β} (hx : x = some a) (hf : f a = some b) :
    (x >>= f) = some b := by
  rw [hx]
  exact hf

/-- A value that is written as it is. -/
theorem reads_same {d : Json} {a : α} (h : value? d = some a) : ∀ d', d = d' → value? d' = some a := by
  rintro _ rfl
  exact h

theorem text?_text (s : String) : Document.text? (Json.text s) = some s := rfl

theorem flag?_bool (b : Bool) : Document.flag? (Json.bool b) = some b := rfl

theorem word?_word (n : UInt64) : word? (Json.word n) = some n := by
  change Numeral.word? n.toNat = some n
  rw [Numeral.word?, if_pos n.toNat_lt, Address.toUInt64_toNat]

theorem word32?_word32 (n : UInt32) : word32? (Json.word32 n) = some n := by
  change Numeral.word32? n.toNat = some n
  rw [Numeral.word32?, if_pos n.toNat_lt]
  exact congrArg some UInt32.ofNat_toNat

theorem byte?_nat (n : UInt8) : byte? (Json.nat n.toNat) = some n := by
  change Numeral.byte? n.toNat = some n
  rw [Numeral.byte?, if_pos n.toNat_lt]
  exact congrArg some UInt8.ofNat_toNat

theorem option?_option (hread : ∀ a, value? (encode a) = some a) (hsome : ∀ a, Document.present? (encode a) = some true)
    (o : Option α) : option? value? (Json.option encode o) = some o := by
  cases o with
  | none => rfl
  | some a =>
    unfold option? Json.option
    rw [hsome a, hread a]
    rfl

theorem option?_text (o : Option String) : option? Document.text? (Json.option .text o) = some o :=
  option?_option text?_text (fun _ => rfl) o

theorem option?_word (o : Option UInt64) : option? word? (Json.option .word o) = some o :=
  option?_option word?_word (fun _ => rfl) o

theorem option?_word32 (o : Option UInt32) : option? word32? (Json.option .word32 o) = some o :=
  option?_option word32?_word32 (fun _ => rfl) o

theorem list?_listOf (hread : ∀ a, value? (encode a) = some a) (items : List α) :
    list? value? (.listOf encode items) = some items := by
  change (items.map encode).mapM value? = some items
  rw [List.mapM_map, show value? ∘ encode = some from funext hread]
  exact List.mapM_pure.trans (congrArg some items.map_id')

theorem rowsAbridged_listOf {missing : Fields Json} {fields : α → Fields Json} (items : List α) :
    RowsAbridged (Abridged missing fun _ => Eq) (.listOf (fun a => .object (fields a)) items)
      (.listOf (fun a => .object (fields a)) items) := by
  refine ⟨_, _, rfl, rfl, List.forall₂_map_left_iff.2 (List.forall₂_map_right_iff.2 (List.forall₂_same.2 ?_))⟩
  exact fun a _ => ⟨fields a, fields a, rfl, rfl, .refl fun _ _ => rfl⟩

/-- Rows that are read as what they were written for. -/
theorem reads_rows {row : Json → Json → Prop} {item? : Json → Option α}
    (hread : ∀ a d, row (encode a) d → item? d = some a) {items : List α} :
    ∀ d, RowsAbridged row (.listOf encode items) d → list? item? d = some items := by
  rintro _ ⟨_, rows, hitems, rfl, hall⟩
  obtain rfl : items.map encode = _ := Json.list.inj hitems
  change rows.mapM item? = some items
  clear hitems
  induction items generalizing rows with
  | nil =>
    cases hall
    rfl
  | cons a items ih =>
    cases hall with
    | cons hfirst hrest =>
      rw [List.mapM_cons, hread a _ hfirst, ih _ hrest]
      rfl

end Json

/-- A table: where it is left out it has no rows, and the rows that are there may be written shorter. -/
theorem Fields.Abridged.table {missing f g : Fields Json} {inner : String → Json → Json → Prop}
    (h : Abridged missing inner f g) (hnodup : (f.map Prod.fst).Nodup) (name : String) {α : Type} {items : List α}
    {rowMissing : Fields Json} {fields : α → Fields Json} {item? : Json → Option α}
    (hd : f.lookup name = some (.listOf (fun a => .object (fields a)) items))
    (hinner : inner name = Json.RowsAbridged (Json.Abridged rowMissing fun _ => Eq))
    (hread : ∀ a d, Json.Abridged rowMissing (fun _ => Eq) (.object (fields a)) d → item? d = some a)
    (hmissing : missing.lookup name = some (.list [])) : g.orElse name (Document.list? item?) [] = some items := by
  refine h.orElse hnodup name hd ?reads ?self ?default
  case reads =>
    rw [hinner]
    exact Json.reads_rows hread
  case self =>
    rw [hinner]
    exact Json.rowsAbridged_listOf items
  case default =>
    rw [hmissing]
    rfl

end BinAtlas
