import BinAtlas.Proofs.Window

/-! Transfers in several turns. A write of all data, a read of a given length and a read to the end are loops
over single writes and reads. Nothing bounds such a loop but what is left of the data or of the range; the
transfers of a window, which bound it by that, end as it does, over every host. -/

namespace BinAtlas

/-- A step is made again and again until it gives a result. -/
inductive Repeats {α β : Type} (step : α → β ⊕ α) : α → β → Prop
  | ends {a : α} {b : β} (stops : step a = .inl b) : Repeats step a b
  | turn {a a' : α} {b : β} (goes : step a = .inr a') (rest : Repeats step a' b) : Repeats step a b

theorem Repeats.unique {α β : Type} {step : α → β ⊕ α} {a : α} {b c : β} (h : Repeats step a b)
    (h' : Repeats step a c) : c = b := by
  induction h with
  | ends stops =>
    cases h' with
    | ends stops' =>
      rw [stops] at stops'
      exact (Sum.inl.inj stops').symm
    | turn goes =>
      rw [stops] at goes
      cases goes
  | turn goes rest ih =>
    cases h' with
    | ends stops =>
      rw [goes] at stops
      cases stops
    | turn goes' rest' =>
      rw [goes] at goes'
      exact ih (Sum.inr.inj goes' ▸ rest')

theorem Repeats.iff_eq {α β : Type} {step : α → β ⊕ α} {a : α} {b : β} (h : Repeats step a b) (c : β) :
    Repeats step a c ↔ c = b := by
  constructor
  · intro h'
    exact h.unique h'
  · rintro rfl
    exact h

namespace Window

variable {σ : Type}

/-- One turn of a write of all data: what is left of it is offered to a write, which must take some. -/
def pourStep (h : Host σ) : List UInt8 × Window × σ →
    (Except WindowError Unit × Window × σ) ⊕ (List UInt8 × Window × σ)
  | ([], w, m) => .inl (.ok (), w, m)
  | (b :: bs, w, m) =>
    match w.write h m (b :: bs) with
    | (.error e, w, m) => .inl (.error e, w, m)
    | (.ok 0, w, m) => .inl (.error .writeZero, w, m)
    | (.ok n, w, m) => .inr ((b :: bs).drop n, w, m)

/-- One turn of a read of a given length: how much is still to be read, and what has been. -/
def fillStep (v : View) : Nat × List UInt8 × Window →
    (Except WindowError (List UInt8) × Window) ⊕ (Nat × List UInt8 × Window)
  | (0, got, w) => .inl (.ok got, w)
  | (n + 1, got, w) =>
    match w.read v (n + 1) with
    | (.error e, w) => .inl (.error e, w)
    | (.ok [], w) => .inl (.error .unexpectedEnd, w)
    | (.ok bytes, w) => .inr (n + 1 - bytes.length, got ++ bytes, w)

/-- One turn of a read to the end: the i-th read has a buffer of `buffer i + 1` bytes, and one that gives nothing
is the last. -/
def drainStep (v : View) (buffer : Nat → Nat) : Nat × List UInt8 × Window →
    (Except WindowError (List UInt8) × Window) ⊕ (Nat × List UInt8 × Window)
  | (i, got, w) =>
    match w.read v (buffer i + 1) with
    | (.error e, w) => .inl (.error e, w)
    | (.ok [], w) => .inl (.ok got, w)
    | (.ok bytes, w) => .inr (i + 1, got ++ bytes, w)

/-- A write of all data never runs out of turns. -/
theorem repeats_pour (h : Host σ) {turns : Nat} {data : List UInt8} (enough : data.length ≤ turns) (w : Window) (m : σ) :
    Repeats (pourStep h) (data, w, m) (pour h turns data w m) := by
  induction turns generalizing data w m with
  | zero =>
    obtain rfl := List.eq_nil_of_length_eq_zero (Nat.le_zero.1 enough)
    exact .ends rfl
  | succ turns ih =>
    cases data with
    | nil => exact .ends rfl
    | cons b bs =>
      rw [pour]
      cases hwrite : w.write h m (b :: bs) with
      | mk r next =>
        obtain ⟨w', m'⟩ := next
        cases r with
        | error e =>
          refine .ends ?_
          rw [pourStep, hwrite]
        | ok n =>
          cases n with
          | zero =>
            refine .ends ?_
            rw [pourStep, hwrite]
            rfl
          | succ n =>
            have hgoes : pourStep h (b :: bs, w, m) = .inr (bs.drop n, w', m') := by
              rw [pourStep, hwrite]
              rfl
            refine .turn hgoes (ih ?_ w' m')
            rw [List.length_cons] at enough
            rw [List.length_drop]
            omega

theorem repeats_writeAll (w : Window) (h : Host σ) (m : σ) (data : List UInt8) :
    Repeats (pourStep h) (data, w, m) (w.writeAll h m data) :=
  repeats_pour h (Nat.le_refl _) w m

/-- The outcome of a read with bytes that were there before it. -/
def behind (got : List UInt8) (out : Except WindowError (List UInt8) × Window) :
    Except WindowError (List UInt8) × Window := (out.1.map (got ++ ·), out.2)

theorem behind_nil (out : Except WindowError (List UInt8) × Window) : behind [] out = out := by
  obtain ⟨r, w⟩ := out
  cases r <;> rfl

theorem behind_ok_nil (got : List UInt8) (w : Window) : behind got (.ok [], w) = (.ok got, w) := by
  rw [behind, Except.map, List.append_nil]

theorem behind_behind (got more : List UInt8) (out : Except WindowError (List UInt8) × Window) :
    behind got (behind more out) = behind (got ++ more) out := by
  obtain ⟨r, w⟩ := out
  cases r with
  | error e => rfl
  | ok rest => simp only [behind, Except.map, List.append_assoc]

theorem fill_cons {v : View} {turns n : Nat} {w w' : Window} {b : UInt8} {bs : List UInt8}
    (hread : w.read v (n + 1) = (.ok (b :: bs), w')) :
    fill v (turns + 1) (n + 1) w = behind (b :: bs) (fill v turns (n - bs.length) w') := by
  rw [fill, hread]
  dsimp only
  obtain ⟨r, w''⟩ := fill v turns (n - bs.length) w'
  cases r <;> rfl

theorem drain_cons {v : View} {buffer : Nat → Nat} {turns i : Nat} {w w' : Window} {b : UInt8} {bs : List UInt8}
    (hread : w.read v (buffer i + 1) = (.ok (b :: bs), w')) :
    drain v buffer (turns + 1) i w = behind (b :: bs) (drain v buffer turns (i + 1) w') := by
  rw [drain, hread]
  dsimp only
  obtain ⟨r, w''⟩ := drain v buffer turns (i + 1) w'
  cases r <;> rfl

/-- Nor does a read of a given length. -/
theorem repeats_fill (v : View) {turns n : Nat} (enough : n ≤ turns) (got : List UInt8) (w : Window) :
    Repeats (fillStep v) (n, got, w) (behind got (fill v turns n w)) := by
  induction turns generalizing n got w with
  | zero =>
    obtain rfl := Nat.le_zero.1 enough
    rw [fill, behind_ok_nil]
    exact .ends rfl
  | succ turns ih =>
    cases n with
    | zero =>
      rw [fill, behind_ok_nil]
      exact .ends rfl
    | succ n =>
      cases hread : w.read v (n + 1) with
      | mk r w' =>
        cases r with
        | error e =>
          refine .ends ?_
          rw [fillStep, fill, hread]
          rfl
        | ok bytes =>
          cases bytes with
          | nil =>
            refine .ends ?_
            rw [fillStep, fill, hread]
            rfl
          | cons b bs =>
            have hgoes : fillStep v (n + 1, got, w) = .inr (n + 1 - (b :: bs).length, got ++ b :: bs, w') := by
              rw [fillStep, hread]
            rw [fill_cons hread, behind_behind]
            refine .turn hgoes ?_
            rw [List.length_cons, Nat.add_sub_add_right]
            exact ih (by omega) _ w'

theorem repeats_readExact (w : Window) (v : View) (n : Nat) :
    Repeats (fillStep v) (n, [], w) (w.readExact v n) := by
  rw [← behind_nil (w.readExact v n)]
  exact repeats_fill v (Nat.le_refl n) [] w

/-- Every read to the end but the last takes some of the range, so its turns are enough. -/
theorem repeats_drain (v : View) (buffer : Nat → Nat) {turns : Nat} (i : Nat) (got : List UInt8) {w : Window}
    (enough : w.rest < turns) :
    Repeats (drainStep v buffer) (i, got, w) (behind got (drain v buffer turns i w)) := by
  induction turns generalizing i got w with
  | zero => exact absurd enough (Nat.not_lt_zero _)
  | succ turns ih =>
    have hrest := w.rest_advance (buffer i + 1)
    have hread := w.read_eq v (buffer i + 1)
    generalize w.advance (w.span (buffer i + 1)) = w' at hrest hread
    cases hbytes : if w.span (buffer i + 1) = 0 then [] else v.bytes w.address (w.span (buffer i + 1)) 0 with
    | nil =>
      rw [hbytes] at hread
      refine .ends ?_
      rw [drainStep, drain, hread, behind_ok_nil]
    | cons b bs =>
      have hspan : w.span (buffer i + 1) ≠ 0 := by
        intro hzero
        rw [if_pos hzero] at hbytes
        cases hbytes
      rw [hbytes] at hread
      have hgoes : drainStep v buffer (i, got, w) = .inr (i + 1, got ++ b :: bs, w') := by
        rw [drainStep, hread]
      rw [drain_cons hread, behind_behind]
      refine .turn hgoes (ih (i + 1) _ ?_)
      rw [hrest]
      have hle : w.span (buffer i + 1) ≤ w.rest := Nat.min_le_right _ _
      omega

theorem repeats_readToEnd (w : Window) (v : View) (buffer : Nat → Nat) :
    Repeats (drainStep v buffer) (0, [], w) (w.readToEnd v buffer) := by
  rw [← behind_nil (w.readToEnd v buffer)]
  refine repeats_drain v buffer 0 [] ?_
  rw [remaining_eq]
  exact Nat.lt_succ_self _

/-- The bytes from the position to the end of the range, zeros for missing ones. -/
def ahead (w : Window) (m : Image) : List UInt8 := (List.range w.rest).map fun i => (m.contentAt (w.place + i)).getD 0

theorem length_ahead (w : Window) (m : Image) : (w.ahead m).length = w.rest := by
  rw [ahead, List.length_map, List.length_range]

theorem take_ahead (w : Window) (m : Image) (n : Nat) :
    (w.ahead m).take n = (List.range (w.span n)).map fun i => (m.contentAt (w.place + i)).getD 0 := by
  rw [ahead, ← List.map_take, List.take_range, span]

/-- Where the end has been passed nothing is ahead, although the place may be no address then. -/
theorem read_start_add_position (w : Window) (m : Image) : m.read (w.start + w.position) w.rest 0 = w.ahead m := by
  rw [Image.read_eq, ahead]
  by_cases hrest : w.rest = 0
  · rw [hrest]
    rfl
  · have hspan : 0 < w.span w.rest := by
      rw [span, Nat.min_self]
      exact Nat.pos_of_ne_zero hrest
    rw [← w.address_eq hspan, w.toNat_address hspan]

theorem advance_advance (w : Window) (a b : Nat) : (w.advance a).advance b = w.advance (a + b) := by
  have hposition : w.position + a.toUInt64 + b.toUInt64 = w.position + (a + b).toUInt64 := by
    rw [UInt64.add_assoc, ← UInt64.ofNat_add]
  simp only [advance, hposition]

/-- Two reads in a row handle what one of both lengths does. -/
theorem span_add (w : Window) (a b : Nat) : w.span a + (w.advance (w.span a)).span b = w.span (a + b) := by
  have hrest := w.rest_advance a
  unfold span at *
  omega

theorem place_advance (w : Window) (n : Nat) : (w.advance (w.span n)).place = w.place + w.span n := by
  have hposition := w.position_advance n
  change w.start.toNat + (w.advance (w.span n)).position.toNat = w.place + w.span n
  rw [hposition, ← Nat.add_assoc]
  rfl

/-- A read moves on by what it takes. -/
theorem ahead_advance (w : Window) (m : Image) (n : Nat) :
    (w.advance (w.span n)).ahead m = (w.ahead m).drop n := by
  have hrest := w.rest_advance n
  apply List.ext_getElem
  · rw [length_ahead, List.length_drop, length_ahead, hrest, span]
    omega
  · intro i hi _
    have hspan : w.span n = n := by
      rw [length_ahead, hrest] at hi
      unfold span at *
      omega
    have hplace := w.place_advance n
    rw [hspan] at hplace
    rw [List.getElem_drop]
    simp only [ahead, List.getElem_map, List.getElem_range, hspan, hplace, Nat.add_assoc]

section Image

variable {v : View} {m : Image} (reads : ∀ a n, v.bytes a n 0 = m.read a n 0)

include reads

/-- A read takes the first bytes of those ahead. -/
theorem read_eq_take (w : Window) (n : Nat) :
    w.read v n = (.ok ((w.ahead m).take n), w.advance (w.span n)) := by
  rw [read_eq, take_ahead]
  split_ifs with hspan
  · rw [hspan]
    rfl
  · rw [reads, Image.read_eq, w.toNat_address (Nat.pos_of_ne_zero hspan)]

theorem fill_of_rest_eq_zero {w : Window} (hrest : w.rest = 0) {n : Nat} (hn : 0 < n) (turns : Nat) :
    fill v turns n w = (.error .unexpectedEnd, w) := by
  cases n with
  | zero => exact absurd rfl (Nat.ne_of_gt hn)
  | succ n =>
    cases turns with
    | zero => rfl
    | succ turns =>
      have hread : w.read v (n + 1) = (.ok [], w) := by
        rw [read_eq_take reads, take_ahead, span, hrest, Nat.min_zero, advance_zero]
        rfl
      rw [fill, hread]

/-- A read of a given length is one read, and a second one that finds nothing where the first came short. -/
theorem readExact_eq (w : Window) (n : Nat) :
    w.readExact v n = (if n ≤ w.rest then .ok ((w.ahead m).take n) else .error .unexpectedEnd, w.advance (w.span n)) := by
  cases n with
  | zero =>
    rw [if_pos (Nat.zero_le _), span, Nat.zero_min, advance_zero]
    rfl
  | succ n =>
    have hread := read_eq_take reads w (n + 1)
    have hlength : ((w.ahead m).take (n + 1)).length = w.span (n + 1) := by
      rw [List.length_take, length_ahead, span]
    have hrest := w.rest_advance (n + 1)
    have hmin : w.span (n + 1) = min (n + 1) w.rest := rfl
    change fill v (n + 1) (n + 1) w = _
    generalize w.span (n + 1) = k at *
    generalize w.advance k = w' at *
    cases hbytes : (w.ahead m).take (n + 1) with
    | nil =>
      rw [hbytes] at hread hlength
      rw [List.length_nil] at hlength
      rw [fill, hread, if_neg (by omega)]
    | cons b bs =>
      rw [hbytes] at hread hlength
      rw [List.length_cons] at hlength
      rw [fill_cons hread]
      by_cases hall : n + 1 ≤ w.rest
      · have hnone : n - bs.length = 0 := by omega
        rw [if_pos hall, hnone, fill, behind_ok_nil]
      · -- the range is used up, so a second read gives nothing
        have hmore : 0 < n - bs.length := by omega
        rw [if_neg hall, fill_of_rest_eq_zero reads (by omega) hmore]
        rfl

/-- However large the buffers are, a read to the end takes all that is ahead. -/
theorem drain_eq (buffer : Nat → Nat) {turns : Nat} (i : Nat) {w : Window} (enough : w.rest < turns) :
    drain v buffer turns i w = (.ok (w.ahead m), w.advance w.rest) := by
  induction turns generalizing i w with
  | zero => exact absurd enough (Nat.not_lt_zero _)
  | succ turns ih =>
    have hread := read_eq_take reads w (buffer i + 1)
    have hahead := w.ahead_advance m (buffer i + 1)
    have hrest := w.rest_advance (buffer i + 1)
    have hspan : w.span (buffer i + 1) = min (buffer i + 1) w.rest := rfl
    cases hbytes : (w.ahead m).take (buffer i + 1) with
    | nil =>
      have hnone : w.ahead m = [] := by simpa using hbytes
      have hzero : w.rest = 0 := by rw [← w.length_ahead m, hnone, List.length_nil]
      rw [hbytes, hspan, hzero, Nat.min_zero] at hread
      rw [drain, hread, hnone, hzero]
    | cons b bs =>
      have hsome : 0 < w.rest := by
        rw [← w.length_ahead m]
        refine List.length_pos_iff.2 fun hnone => ?_
        rw [hnone, List.take_nil] at hbytes
        cases hbytes
      have htotal : w.span (buffer i + 1) + (w.rest - w.span (buffer i + 1)) = w.rest := by omega
      rw [hbytes] at hread
      rw [drain_cons hread, ih (i + 1) (by omega), hahead, hrest, advance_advance, htotal, ← hbytes, behind, Except.map,
        List.take_append_drop]

theorem readToEnd_eq (w : Window) (buffer : Nat → Nat) :
    w.readToEnd v buffer = (.ok (w.ahead m), w.advance w.rest) := by
  refine drain_eq reads buffer 0 ?_
  rw [remaining_eq]
  exact Nat.lt_succ_self _

end Image

end Window
end BinAtlas
