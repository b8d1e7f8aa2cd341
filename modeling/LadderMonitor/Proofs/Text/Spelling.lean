import LadderMonitor.Text.Blank
import Mathlib.Data.List.TakeWhile

namespace LadderMonitor.Text

variable {p : Char → Bool} {before middle after : List Char} {c : Char}

theorem exists_append_trimBoth (p : Char → Bool) (cs : List Char) :
    ∃ before after, cs = before ++ trimBoth p cs ++ after ∧ ∀ c ∈ before ++ after, p c := by
  have hfront := List.takeWhile_append_dropWhile (p := p) (l := cs)
  have hback := List.takeWhile_append_dropWhile (p := p) (l := (cs.dropWhile p).reverse)
  refine ⟨cs.takeWhile p, ((cs.dropWhile p).reverse.takeWhile p).reverse, ?_, ?_⟩
  · rw [trimBoth, List.append_assoc, ← List.reverse_append, hback, List.reverse_reverse, hfront]
  · intro c hc
    rcases List.mem_append.1 hc with hfirst | hlast
    · exact List.mem_takeWhile_imp hfirst
    · exact List.mem_takeWhile_imp (List.mem_reverse.1 hlast)

theorem trimBoth_append (hbefore : ∀ c ∈ before, p c) (hafter : ∀ c ∈ after, p c)
    (hmiddle : ∀ c ∈ middle, p c = false) : trimBoth p (before ++ middle ++ after) = middle := by
  have hends : trimBoth p middle = middle :=
    trimBoth_eq_self (fun c hc => hmiddle c (List.mem_of_mem_head? hc))
      (fun c hc => hmiddle c (List.mem_of_getLast? hc))
  have hreverse : ∀ c ∈ after.reverse, p c := fun c hc => hafter c (List.mem_reverse.1 hc)
  cases middle with
  | nil =>
    have hall : ∀ c ∈ before ++ [] ++ after, p c := by
      simpa [or_imp, forall_and] using ⟨hbefore, hafter⟩
    rw [trimBoth, List.dropWhile_eq_nil_iff.2 hall]
    rfl
  | cons first rest =>
    have hfirst : p first = false := hmiddle first List.mem_cons_self
    have hfront : (before ++ (first :: rest) ++ after).dropWhile p = (first :: rest) ++ after := by
      rw [List.append_assoc, List.dropWhile_append_of_pos hbefore, List.cons_append,
        List.dropWhile_cons_of_neg (by simp [hfirst])]
    have hown : (first :: rest).dropWhile p = first :: rest :=
      List.dropWhile_cons_of_neg (by simp [hfirst])
    rw [trimBoth, hown] at hends
    rw [trimBoth, hfront, List.reverse_append, List.dropWhile_append_of_pos hreverse, hends]

theorem foldCase_of_isBlank (h : isBlank c) : foldCase c = c := by
  have hranges : ¬ (65 ≤ c.toNat ∧ c.toNat ≤ 90) ∧ c.toNat ≠ 0x212A := by
    simp [isBlank, isWhite, whiteRanges] at h
    omega
  have hcapital : ('A' ≤ c && c ≤ 'Z') = false := by
    rw [Bool.and_eq_false_iff, decide_eq_false_iff_not, decide_eq_false_iff_not, ← not_and_or]
    exact hranges.1
  rw [foldCase, if_neg (by simp [hcapital]), if_neg hranges.2]

/-- Whether a text is a name, in any letter case and between any blanks. -/
def Spells (text name : String) : Prop :=
  ∃ before middle after, text.toList = before ++ middle ++ after ∧
    (∀ c ∈ before ++ after, isBlank c) ∧ middle.map foldCase = name.toList

/-- The texts under which a name without blanks is looked up are those that spell it. -/
theorem nameKey_eq_iff {text name : String} (hname : ∀ c ∈ name.toList, isBlank c = false) :
    nameKey text = name ↔ Spells text name := by
  rw [nameKey, ← String.toList_inj, String.toList_ofList]
  constructor
  · intro hkey
    obtain ⟨before, after, hparts, hblank⟩ := exists_append_trimBoth isBlank text.toList
    exact ⟨before, strip text, after, hparts, hblank, hkey⟩
  · rintro ⟨before, middle, after, hparts, hblank, hkey⟩
    have hmiddle : ∀ c ∈ middle, isBlank c = false := by
      intro c hc
      by_contra hnot
      rw [Bool.not_eq_false] at hnot
      have hmem : c ∈ name.toList := by
        rw [← hkey, ← foldCase_of_isBlank hnot]
        exact List.mem_map_of_mem hc
      rw [hname c hmem] at hnot
      cases hnot
    rw [strip, hparts, trimBoth_append (fun c hc => hblank c (List.mem_append_left _ hc))
      (fun c hc => hblank c (List.mem_append_right _ hc)) hmiddle, hkey]

end LadderMonitor.Text
