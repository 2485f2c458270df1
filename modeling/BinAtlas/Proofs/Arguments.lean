import BinAtlas.Command.Arguments

/-! The switch for JSON on the command line. Put before arguments that do not have it, it sets itself and
changes nothing else that is read from them; what is refused without it is refused with it. -/

namespace BinAtlas.Command

namespace Given

variable {g g' : Given} {grammar : Grammar} {name value : String}

/-- The same with the switch set. -/
def switched (g : Given) : Given := { g with json := true }

theorem word?_switched (g : Given) (grammar : Grammar) (value : String) :
    g.switched.word? grammar value = (g.word? grammar value).map switched := by
  unfold word?
  rw [show g.switched.words = g.words from rfl]
  cases grammar.words[g.words.length]? with
  | none => rfl
  | some shape =>
    dsimp only
    split <;> rfl

theorem option?_switched (g : Given) (grammar : Grammar) (name value : String) :
    g.switched.option? grammar name value = (g.option? grammar name value).map switched := by
  unfold option?
  rw [show g.switched.options = g.options from rfl]
  cases grammar.options.lookup name with
  | none => rfl
  | some shape =>
    dsimp only
    split <;> rfl

theorem json_of_word? (h : g.word? grammar value = some g') : g'.json = g.json := by
  unfold word? at h
  split at h
  · split at h
    · cases h
      rfl
    · cases h
  · cases h

theorem json_of_option? (h : g.option? grammar name value = some g') : g'.json = g.json := by
  unfold option? at h
  split at h
  · split at h
    · cases h
      rfl
    · cases h
  · cases h

end Given

variable {α β : Type} {grammar : Grammar} {g g' : Given} {escaped : Bool} {args rest : List String}

theorem orUsage_bind_eq_ok {o : Option α} {k : α → Except Refusal β} {b : β} (h : (orUsage o >>= k) = .ok b) :
    ∃ a, o = some a ∧ k a = .ok b := by
  cases o with
  | none => cases h
  | some a => exact ⟨a, rfl, h⟩

/-- An option with its value joined to it is taken, whatever its name. -/
theorem scan_joined {arg name value : String} (hescaped : ¬escaped = true) (hlook : look arg = .long name (some value)) :
    scan grammar g escaped (arg :: args) =
      orUsage (g.option? grammar name value) >>= fun g => scan grammar g false args := by
  rw [scan, if_neg hescaped]
  simp only [hlook]

/-- An option takes the word after it. -/
theorem scan_separate {arg name value : String} (hescaped : ¬escaped = true) (hlook : look arg = .long name none)
    (hjson : name ≠ "json") (hhelp : name ≠ "help") (hversion : name ≠ "version") (hvalue : look value = .word) :
    scan grammar g escaped (arg :: value :: args) =
      orUsage (g.option? grammar name value) >>= fun g => scan grammar g false args := by
  rw [scan, if_neg hescaped]
  simp only [hlook, hvalue]

/-- Once set, the switch stays. -/
theorem json_of_scan (h : scan grammar g escaped args = .ok (g', rest)) (hg : g.json = true) : g'.json = true := by
  fun_induction scan grammar g escaped args with
  | case1 g escaped =>
    cases h
    exact hg
  | case2 g arg args ih =>
    obtain ⟨g₁, hword, h⟩ := orUsage_bind_eq_ok h
    exact ih g₁ h ((Given.json_of_word? hword).trans hg)
  | case3 g escaped arg args hescaped hlook ih => exact ih h hg
  | case5 g escaped arg args hescaped hlook hjson ih => exact ih h rfl
  | case8 g escaped arg args hescaped name value hlook ih =>
    obtain ⟨g₁, hoption, h⟩ := orUsage_bind_eq_ok h
    exact ih g₁ h ((Given.json_of_option? hoption).trans hg)
  | case9 g escaped arg hescaped name hjson hhelp hversion hlook value args hvalue ih =>
    obtain ⟨g₁, hoption, h⟩ := orUsage_bind_eq_ok h
    exact ih g₁ h ((Given.json_of_option? hoption).trans hg)
  | case16 =>
    cases h
    exact hg
  | case17 g escaped arg args hescaped hlook hnamed ih =>
    obtain ⟨g₁, hword, h⟩ := orUsage_bind_eq_ok h
    exact ih g₁ h ((Given.json_of_word? hword).trans hg)
  | _ => cases h

/-- How a reading that starts without the switch compares to one that starts with it: if the first one does
not come upon it, they agree but for the switch; if it does, that is once too often for the second one; and
what the first one refuses is refused. -/
structure Switches (without set : Except Refusal (Given × List String)) : Prop where
  of_unset : ∀ g rest, without = .ok (g, rest) → g.json = false → set = .ok (g.switched, rest)
  of_set : ∀ g rest, without = .ok (g, rest) → g.json = true → set = .error .usage
  of_usage : without = .error .usage → set = .error .usage

namespace Switches

theorem ok (hg : g.json = false) (rest : List String) : Switches (.ok (g, rest)) (.ok (g.switched, rest)) := by
  constructor
  · intro g' rest' h _
    cases h
    rfl
  · intro g' rest' h hg'
    cases h
    rw [hg] at hg'
    cases hg'
  · intro h
    cases h

theorem error (r : Refusal) : Switches (.error r) (.error r) := by
  constructor
  · intro g rest h
    cases h
  · intro g rest h
    cases h
  · intro h
    exact h

/-- One more value taken. -/
theorem step {o : Option Given} {k : Given → Except Refusal (Given × List String)}
    (h : ∀ g, o = some g → Switches (k g) (k g.switched)) :
    Switches (orUsage o >>= k) (orUsage (o.map Given.switched) >>= k) := by
  cases o with
  | none => exact error .usage
  | some g => exact h g rfl

end Switches

/-- The switch changes nothing else that is read. -/
theorem switches_scan (grammar : Grammar) (g : Given) (escaped : Bool) (args : List String) (hg : g.json = false) :
    Switches (scan grammar g escaped args) (scan grammar g.switched escaped args) := by
  -- by the cases of the reading without the switch; what it takes, the other one takes
  fun_induction scan grammar g escaped args with
  | case1 g escaped => exact .ok hg []
  | case2 g arg args ih =>
    rw [scan, if_pos rfl, Given.word?_switched]
    apply Switches.step
    intro g₁ hword
    exact ih g₁ ((Given.json_of_word? hword).trans hg)
  | case3 g escaped arg args hescaped hlook ih =>
    rw [scan, if_neg hescaped, hlook]
    exact ih hg
  | case4 g escaped arg args hescaped hlook hjson =>
    rw [hg] at hjson
    cases hjson
  | case5 g escaped arg args hescaped hlook hjson ih =>
    -- here the first reading comes upon the switch, and the second one upon its second
    have hset : scan grammar g.switched escaped (arg :: args) = .error .usage := by
      rw [scan, if_neg hescaped, hlook]
      rfl
    rw [hset]
    constructor
    · intro g' rest h hg'
      rw [json_of_scan h rfl] at hg'
      cases hg'
    · intro _ _ _ _
      rfl
    · intro _
      rfl
  | case8 g escaped arg args hescaped name value hlook ih =>
    rw [scan_joined hescaped hlook, Given.option?_switched]
    apply Switches.step
    intro g₁ hoption
    exact ih g₁ ((Given.json_of_option? hoption).trans hg)
  | case9 g escaped arg hescaped name hjson hhelp hversion hlook value args hvalue ih =>
    rw [scan_separate hescaped hlook hjson hhelp hversion hvalue, Given.option?_switched]
    apply Switches.step
    intro g₁ hoption
    exact ih g₁ ((Given.json_of_option? hoption).trans hg)
  | case16 g escaped arg args hescaped hlook hnamed hhelp =>
    rw [scan, if_neg hescaped, hlook]
    dsimp only
    rw [if_pos hnamed, if_neg hhelp]
    exact .ok hg _
  | case17 g escaped arg args hescaped hlook hnamed ih =>
    rw [scan, if_neg hescaped, hlook]
    dsimp only
    rw [if_neg hnamed, Given.word?_switched]
    apply Switches.step
    intro g₁ hword
    exact ih g₁ ((Given.json_of_word? hword).trans hg)
  | _ =>
    -- what is refused for its look is refused with or without the switch
    simp_all [scan, Switches.error]

variable {i : Invocation}

theorem scan_json (grammar : Grammar) (hg : g.json = false) (args : List String) :
    scan grammar g false ("--json" :: args) = scan grammar g.switched false args := by
  rw [scan, if_neg Bool.false_ne_true, show look "--json" = .long "json" none from rfl]
  simp only [hg]
  rfl

/-- The switch ahead of a command makes the switch of the whole. -/
theorem complete_switched (before : Given) (args : List String) :
    complete before.switched args = ({ · with json := true }) <$> complete before args := by
  cases args with
  | nil => rfl
  | cons name args =>
    simp only [complete, map_bind, map_pure]
    rfl

theorem json_of_complete {before : Given} (h : complete before args = .ok i) (hbefore : before.json = true) :
    i.json = true := by
  have hsame : before.switched = before := by
    rw [Given.switched, ← hbefore]
  have hcomplete := complete_switched before args
  rw [hsame, h] at hcomplete
  injection hcomplete with hi
  rw [hi]

theorem ofArguments_of_scan {before : Given} (h : scan top {} false args = .ok (before, rest)) :
    ofArguments args = complete before rest := by
  rw [ofArguments, h]
  rfl

theorem ofArguments_of_refused {r : Refusal} (h : scan top {} false args = .error r) : ofArguments args = .error r := by
  rw [ofArguments, h]
  rfl

theorem switches_top (args : List String) : Switches (scan top {} false args) (scan top {} false ("--json" :: args)) := by
  rw [scan_json top rfl args]
  exact switches_scan top {} false args rfl

/-- Before arguments without it the switch sets itself. -/
theorem ofArguments_json_of_ok (h : ofArguments args = .ok i) (hi : i.json = false) :
    ofArguments ("--json" :: args) = .ok { i with json := true } := by
  cases hscan : scan top {} false args with
  | error r =>
    rw [ofArguments_of_refused hscan] at h
    cases h
  | ok read =>
    obtain ⟨before, rest⟩ := read
    rw [ofArguments_of_scan hscan] at h
    cases hbefore : before.json with
    | true =>
      rw [json_of_complete h hbefore] at hi
      cases hi
    | false =>
      have hswitched := (switches_top args).of_unset before rest hscan hbefore
      rw [ofArguments_of_scan hswitched, complete_switched, h]
      rfl

/-- The switch makes no arguments right. -/
theorem ofArguments_json_of_usage (h : ofArguments args = .error .usage) :
    ofArguments ("--json" :: args) = .error .usage := by
  cases hscan : scan top {} false args with
  | error r =>
    rw [ofArguments_of_refused hscan] at h
    cases h
    exact ofArguments_of_refused ((switches_top args).of_usage hscan)
  | ok read =>
    obtain ⟨before, rest⟩ := read
    rw [ofArguments_of_scan hscan] at h
    cases hbefore : before.json with
    | true => exact ofArguments_of_refused ((switches_top args).of_set before rest hscan hbefore)
    | false =>
      have hswitched := (switches_top args).of_unset before rest hscan hbefore
      rw [ofArguments_of_scan hswitched, complete_switched, h]
      rfl

end BinAtlas.Command
