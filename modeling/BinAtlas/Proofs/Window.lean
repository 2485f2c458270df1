import BinAtlas.Host.Stored
import BinAtlas.Window
import BinAtlas.Proofs.Image

/-! Windows as cursors on plain numbers. Every read and write first caps its length at what is left
of the range; where anything is left, no sum in the window wraps or saturates. -/

namespace BinAtlas

open Address

namespace Window

/-- The addresses from the position to the end. -/
def rest (w : Window) : Nat := w.stop.toNat - w.start.toNat - w.position.toNat

/-- How many of `n` bytes a read or a write handles. -/
def span (w : Window) (n : Nat) : Nat := min n w.rest

/-- The place of the next byte, as a number. -/
def place (w : Window) : Nat := w.start.toNat + w.position.toNat

theorem start_le_stop_toNat (w : Window) : w.start.toNat ≤ w.stop.toNat := UInt64.le_iff_toNat_le.1 w.start_le_stop

theorem toNat_size (w : Window) : w.size.toNat = w.stop.toNat - w.start.toNat :=
  UInt64.toNat_sub_of_le _ _ w.start_le_stop

theorem remaining_eq (w : Window) : w.remaining = w.rest := by
  rw [remaining, toNat_saturatingSub, toNat_size, rest]

theorem span_le (w : Window) (n : Nat) : w.span n ≤ n := Nat.min_le_left _ _

/-- What is handled lies in the range. -/
theorem place_add_span_le (w : Window) {n : Nat} (h : 0 < w.span n) : w.place + w.span n ≤ w.stop.toNat := by
  have := w.start_le_stop_toNat
  unfold span rest at *
  unfold place
  omega

theorem toNat_address (w : Window) {n : Nat} (h : 0 < w.span n) : w.address.toNat = w.place := by
  have := w.place_add_span_le h
  have := toNat_lt_size w.stop
  exact toNat_saturatingAdd (by unfold place at *; omega)

/-- The part of the data that a write puts into the range. -/
def patch (w : Window) (data : List UInt8) : Patch := ⟨w.place, data.take (w.span data.length)⟩

theorem length_patch (w : Window) (data : List UInt8) : (w.patch data).bytes.length = w.span data.length := by
  rw [patch, List.length_take, Nat.min_eq_left (w.span_le _)]

theorem loaded_address_iff (w : Window) (m : Image) (n : Nat) :
    m.loaded w.address (w.span n) ↔ ∀ i < w.span n, (m.contentAt (w.place + i)).isSome := by
  rw [Image.loaded_iff]
  refine forall_congr' fun i => imp_congr_right fun hi => ?_
  rw [w.toNat_address (Nat.zero_lt_of_lt hi)]

theorem contentAt_storeFrom_address (w : Window) (m : Image) (data : List UInt8) (n : Nat) :
    (m.storeFrom w.address 0 (data.take (w.span data.length))).contentAt n =
      (m.contentAt n).map fun b => ((w.patch data).byteAt? n).getD b := by
  rw [Image.contentAt_storeFrom, patch]
  by_cases hs : 0 < w.span data.length
  · rw [w.toNat_address hs, Nat.add_zero]
  · rw [Nat.eq_zero_of_not_pos hs]
    simp only [List.take_zero, Patch.byteAt?_nil]

theorem address_eq (w : Window) {n : Nat} (h : 0 < w.span n) : w.address = w.start + w.position := by
  have := w.place_add_span_le h
  have := toNat_lt_size w.stop
  exact if_pos (by unfold place at *; omega)

theorem byteAt?_patch (w : Window) (data : List UInt8) {i : Nat} (h : i < w.span data.length) :
    (w.patch data).byteAt? (w.place + i) = data[i]? := by
  rw [Patch.byteAt?, patch, if_pos (Nat.le_add_right _ _), Nat.add_sub_cancel_left, List.getElem?_take_of_lt h]

theorem byteAt?_patch_of_outside (w : Window) (data : List UInt8) {n : Nat}
    (h : n < w.place ∨ w.place + w.span data.length ≤ n) : (w.patch data).byteAt? n = none := by
  rcases h with h | h
  · exact Patch.byteAt?_of_lt _ h
  · exact Patch.byteAt?_of_le _ (by rw [w.length_patch]; exact h)

/-- A write stays in the range. -/
theorem byteAt?_patch_of_outside_range (w : Window) (data : List UInt8) {n : Nat}
    (h : n < w.start.toNat ∨ w.stop.toNat ≤ n) : (w.patch data).byteAt? n = none := by
  by_cases hs : 0 < w.span data.length
  · have := w.place_add_span_le hs
    refine w.byteAt?_patch_of_outside data ?_
    unfold place at *
    omega
  · rw [patch, Nat.eq_zero_of_not_pos hs]
    exact Patch.byteAt?_nil _ n

theorem position_add_span_le (w : Window) (n : Nat) :
    w.position.toNat + w.span n ≤ max w.position.toNat (w.stop.toNat - w.start.toNat) := by
  unfold span rest
  omega

theorem position_advance (w : Window) (n : Nat) :
    (w.advance (w.span n)).position.toNat = w.position.toNat + w.span n := by
  have hle := w.position_add_span_le n
  have := toNat_lt_size w.position
  have := toNat_lt_size w.stop
  have hn : (w.span n).toUInt64.toNat = w.span n := toNat_toUInt64 (by omega)
  unfold advance
  rw [toNat_add_of_lt (by rw [hn]; omega), hn]

/-- The second window is the first one at another position. -/
structure MovedTo (w : Window) (p : Nat) (w' : Window) : Prop where
  start : w'.start = w.start
  stop : w'.stop = w.stop
  position : w'.position.toNat = p

theorem movedTo_advance (w : Window) (n : Nat) : w.MovedTo (w.position.toNat + w.span n) (w.advance (w.span n)) :=
  ⟨rfl, rfl, w.position_advance n⟩

/-- A write of data: the window stands past what it handles, and that is changed and nothing else. -/
structure Wrote (w : Window) (data : List UInt8) (m : Image) (w' : Window) (m' : Image) : Prop where
  moved : w.MovedTo (w.position.toNat + w.span data.length) w'
  inside : ∀ i < w.span data.length, m'.contentAt (w.place + i) = data[i]?
  outside : ∀ n, n < w.place ∨ w.place + w.span data.length ≤ n → m'.contentAt n = m.contentAt n

theorem wrote_storeFrom (w : Window) {m : Image} {data : List UInt8}
    (hl : ∀ i < w.span data.length, (m.contentAt (w.place + i)).isSome) :
    w.Wrote data m (w.advance (w.span data.length)) (m.storeFrom w.address 0 (data.take (w.span data.length))) := by
  refine ⟨w.movedTo_advance _, ?_, ?_⟩
  · intro i hi
    obtain ⟨b, hb⟩ := Option.isSome_iff_exists.1 (hl i hi)
    obtain ⟨c, hc⟩ : ∃ c, data[i]? = some c :=
      ⟨_, List.getElem?_eq_getElem (Nat.lt_of_lt_of_le hi (w.span_le data.length))⟩
    rw [w.contentAt_storeFrom_address, hb, w.byteAt?_patch data hi, hc]
    rfl
  · intro n hn
    rw [w.contentAt_storeFrom_address, w.byteAt?_patch_of_outside data hn]
    cases m.contentAt n <;> rfl

theorem advance_zero (w : Window) : w.advance 0 = w := by
  have h : w.position + Nat.toUInt64 0 = w.position := UInt64.add_zero _
  rw [advance, h]

theorem rest_advance (w : Window) (n : Nat) : (w.advance (w.span n)).rest = w.rest - w.span n := by
  have h := w.position_advance n
  unfold rest at *
  rw [h]
  simp only [advance]
  omega

/-- Where a seek is to go: the exact sum, whether it is a word or not. -/
def goal (w : Window) : SeekTarget → Int
  | .start offset => offset.toNat
  | .stop distance => ((w.stop.toNat - w.start.toNat : Nat) : Int) + distance
  | .current distance => (w.position.toNat : Int) + distance

theorem moveTo_shift? (w : Window) (base : UInt64) (d : Int)
    (h : 0 ≤ (base.toNat : Int) + d ∧ (base.toNat : Int) + d < UInt64.size) :
    ∃ q : UInt64, (q.toNat : Int) = base.toNat + d ∧
      seek.moveTo w (shift? base d) = (.ok q, { w with position := q }) := by
  obtain ⟨q, hq⟩ : ∃ q, shift? base d = some q := Option.ne_none_iff_exists'.1 fun hn => shift?_eq_none_iff.1 hn h
  refine ⟨q, shift?_eq_some_iff.1 hq, ?_⟩
  rw [hq]
  rfl

theorem seek_of_mem (w : Window) (target : SeekTarget) (h : 0 ≤ w.goal target ∧ w.goal target < UInt64.size) :
    ∃ q : UInt64, (q.toNat : Int) = w.goal target ∧ w.seek target = (.ok q, { w with position := q }) := by
  cases target with
  | start offset => exact ⟨offset, rfl, rfl⟩
  | stop distance =>
    unfold goal at *
    rw [← w.toNat_size] at *
    exact w.moveTo_shift? w.size distance h
  | current distance => exact w.moveTo_shift? w.position distance h

theorem seek_of_not_mem (w : Window) (target : SeekTarget) (h : ¬ (0 ≤ w.goal target ∧ w.goal target < UInt64.size)) :
    w.seek target = (.error .badSeek, w) := by
  cases target with
  | start offset => exact absurd ⟨Int.natCast_nonneg _, Int.ofNat_lt.2 (toNat_lt_size offset)⟩ h
  | stop distance =>
    unfold goal at h
    rw [← w.toNat_size, ← shift?_eq_none_iff] at h
    rw [seek, h]
    rfl
  | current distance =>
    rw [seek, shift?_eq_none_iff.2 h]
    rfl

/-- A read never fails; what it gives is the view's bytes at the place, zeros for missing ones. -/
theorem read_eq (w : Window) (v : View) (n : Nat) :
    w.read v n = (.ok (if w.span n = 0 then [] else v.bytes w.address (w.span n) 0), w.advance (w.span n)) := by
  simp only [read, remaining_eq, View.getBytes]
  rw [← span]
  split_ifs with h
  · rw [h, advance_zero]
  · rfl

theorem write_of_rest_eq_zero {σ : Type} (w : Window) (h : Host σ) (m : σ) (data : List UInt8) (hr : w.rest = 0) :
    w.write h m data = (.ok 0, w, m) := by
  simp only [write, remaining_eq, hr, Nat.min_zero, if_true]

/-- Where nothing is left of the range, only no data at all is written. -/
theorem pour_of_rest_eq_zero {σ : Type} (w : Window) (h : Host σ) (m : σ) (turns : Nat) {data : List UInt8}
    (hr : w.rest = 0) (hd : data ≠ []) : pour h turns data w m = (.error .writeZero, w, m) := by
  cases data with
  | nil => exact absurd rfl hd
  | cons b bs =>
    cases turns with
    | zero => rfl
    | succ turns => rw [pour, write_of_rest_eq_zero w h m _ hr]

section Image

variable {h : Host Image} (writes : h.patch = Image.patch)

include writes

/-- A write stores the part that fits, all of it or nothing. -/
theorem write_eq (w : Window) (m : Image) (data : List UInt8) :
    w.write h m data =
      if m.loaded w.address (w.span data.length) then
        (.ok (w.span data.length), w.advance (w.span data.length),
          m.storeFrom w.address 0 (data.take (w.span data.length)))
      else (.error (.database (.notFound (.written (w.span data.length) w.address))), w, m) := by
  simp only [write, remaining_eq, writes, Image.patch, List.length_take]
  rw [← span, Nat.min_eq_left (w.span_le data.length)]
  by_cases hz : w.span data.length = 0
  · rw [if_pos hz, hz, advance_zero]
    rfl
  · rw [if_neg hz]
    split_ifs <;> rfl

/-- Writing all the data is one write, and a second one that finds no room where some is left. -/
theorem writeAll_eq (w : Window) (m : Image) (data : List UInt8) :
    w.writeAll h m data =
      if m.loaded w.address (w.span data.length) then
        (if w.span data.length = data.length then .ok () else .error .writeZero,
          w.advance (w.span data.length), m.storeFrom w.address 0 (data.take (w.span data.length)))
      else (.error (.database (.notFound (.written (w.span data.length) w.address))), w, m) := by
  cases data with
  | nil => rw [show w.span ([] : List UInt8).length = 0 from Nat.zero_min _, advance_zero]; rfl
  | cons b bs =>
    have hspan := w.span_le (b :: bs).length
    have hrest := w.rest_advance (b :: bs).length
    have hmin : w.span (b :: bs).length = min (b :: bs).length w.rest := rfl
    change pour h (bs.length + 1) (b :: bs) w m = _
    rw [pour, write_eq writes]
    generalize w.span (b :: bs).length = n at *
    rw [List.length_cons] at *
    by_cases hl : m.loaded w.address n
    · rw [if_pos hl, if_pos hl]
      cases n with
      | zero => rfl
      | succ k =>
        by_cases hall : k + 1 = bs.length + 1
        · -- all of it fits, and nothing is left for a second write
          obtain rfl : k = bs.length := Nat.succ.inj hall
          simp only [List.drop_length, pour, if_true]
        · -- the range is used up, so a second write handles nothing
          have hfull : (w.advance (k + 1)).rest = 0 := by omega
          have hleft : bs.drop k ≠ [] := by
            rw [ne_eq, List.drop_eq_nil_iff]
            omega
          rw [if_neg hall]
          exact pour_of_rest_eq_zero _ h _ _ hfull hleft
    · rw [if_neg hl, if_neg hl]

end Image

end Window
end BinAtlas
