import BinAtlas.Text.Blank
import Mathlib.Data.List.DropRight

/-! Trimming, told without it: what is left has no character of the class at its ends, and nothing but such characters
stood around it. No other part of a text is like that. -/

namespace BinAtlas.Text

variable {p : Char → Bool} {before body after cs : List Char}

/-- No character of the class stands at an end. -/
structure Bare (p : Char → Bool) (cs : List Char) : Prop where
  head : ∀ c ∈ cs.head?, ¬ p c
  last : ∀ c ∈ cs.getLast?, ¬ p c

/-- Nothing but characters of the class stands around a part of a text. -/
def Surrounded (p : Char → Bool) (cs body : List Char) : Prop :=
  ∃ before after, cs = before ++ body ++ after ∧ (∀ c ∈ before, p c) ∧ ∀ c ∈ after, p c

theorem trimBy_eq (p : Char → Bool) (cs : List Char) : trimBy p cs = (cs.dropWhile p).rdropWhile p := rfl

theorem rdropWhile_append_of_pos (h : ∀ c ∈ after, p c) : (cs ++ after).rdropWhile p = cs.rdropWhile p := by
  rw [List.rdropWhile, List.reverse_append, List.dropWhile_append_of_pos (by simpa using h), List.rdropWhile]

theorem rdropWhile_append_rtakeWhile (p : Char → Bool) (cs : List Char) : cs.rdropWhile p ++ cs.rtakeWhile p = cs := by
  rw [List.rdropWhile, List.rtakeWhile, ← List.reverse_append, List.takeWhile_append_dropWhile, List.reverse_reverse]

theorem trimBy_surround (hbefore : ∀ c ∈ before, p c) (hafter : ∀ c ∈ after, p c) :
    trimBy p (before ++ cs ++ after) = trimBy p cs := by
  rw [trimBy_eq, trimBy_eq, List.append_assoc, List.dropWhile_append_of_pos hbefore, List.dropWhile_append]
  split_ifs with hnone
  · rw [List.isEmpty_iff.1 hnone, List.dropWhile_eq_nil_iff.2 hafter]
  · exact rdropWhile_append_of_pos hafter

theorem surrounded_trimBy (p : Char → Bool) (cs : List Char) : Surrounded p cs (trimBy p cs) := by
  refine ⟨cs.takeWhile p, (cs.dropWhile p).rtakeWhile p, ?_, ?_, ?_⟩
  · rw [trimBy_eq, List.append_assoc, rdropWhile_append_rtakeWhile, List.takeWhile_append_dropWhile]
  · exact fun c => List.mem_takeWhile_imp
  · exact fun c => List.mem_rtakeWhile_imp

theorem bare_rdropWhile (h : ∀ c ∈ cs.head?, ¬ p c) : Bare p (cs.rdropWhile p) := by
  constructor
  · intro c hc
    obtain ⟨rest, hrest⟩ := List.rdropWhile_prefix p cs
    refine h c ?_
    rw [← hrest, List.head?_append, Option.mem_def.1 hc]
    simp
  · intro c hc
    obtain ⟨hne, rfl⟩ := List.mem_getLast?_eq_getLast hc
    exact List.rdropWhile_last_not p cs hne

theorem bare_trimBy (p : Char → Bool) (cs : List Char) : Bare p (trimBy p cs) := by
  apply bare_rdropWhile
  intro c hc
  have hhead := List.head?_dropWhile_not p cs
  rw [Option.mem_def.1 hc] at hhead
  simpa using hhead

theorem trimBy_of_bare (h : Bare p cs) : trimBy p cs = cs := by
  have hfront : cs.dropWhile p = cs := by
    rw [List.dropWhile_eq_self_iff]
    intro hlength
    exact h.head _ (by simp [List.head?_eq_getElem?, hlength])
  rw [trimBy_eq, hfront, List.rdropWhile_eq_self_iff]
  intro hne
  exact h.last _ (List.getLast?_eq_some_getLast hne)

/-- What is left of a text is the part that is bare and that nothing else stands around. -/
theorem trimBy_eq_iff : trimBy p cs = body ↔ Surrounded p cs body ∧ Bare p body := by
  constructor
  · rintro rfl
    exact ⟨surrounded_trimBy p cs, bare_trimBy p cs⟩
  · rintro ⟨⟨before, after, rfl, hbefore, hafter⟩, hbare⟩
    rw [trimBy_surround hbefore hafter, trimBy_of_bare hbare]

/-- A text stays bare where each character is replaced by characters that are no more of the class than it was. -/
theorem Bare.flatMap {f : Char → List Char} (h : Bare p cs) (hne : ∀ c, f c ≠ [])
    (hkeeps : ∀ c d, ¬ p c → d ∈ f c → ¬ p d) : Bare p (cs.flatMap f) := by
  constructor
  · intro d hd
    rcases cs with _ | ⟨c, rest⟩
    · simp at hd
    · rw [List.flatMap_cons, List.head?_append_of_ne_nil _ (hne c)] at hd
      exact hkeeps c d (h.head c rfl) (List.mem_of_head? hd)
  · intro d hd
    rcases List.eq_nil_or_concat' cs with rfl | ⟨rest, c, rfl⟩
    · simp at hd
    · rw [List.flatMap_append, List.flatMap_singleton, List.getLast?_append_of_ne_nil _ (hne c)] at hd
      exact hkeeps c d (h.last c List.getLast?_concat) (List.mem_of_getLast? hd)

/-- Trimming the end first changes nothing. -/
theorem trimBy_rdropWhile (p : Char → Bool) (cs : List Char) : trimBy p (cs.rdropWhile p) = trimBy p cs := by
  have hafter : ∀ c ∈ cs.rtakeWhile p, p c := fun c => List.mem_rtakeWhile_imp
  have h : trimBy p ([] ++ cs.rdropWhile p ++ cs.rtakeWhile p) = trimBy p (cs.rdropWhile p) :=
    trimBy_surround (List.forall_mem_nil _) hafter
  rw [List.nil_append, rdropWhile_append_rtakeWhile] at h
  exact h.symm

end BinAtlas.Text
