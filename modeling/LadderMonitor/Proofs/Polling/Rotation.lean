import LadderMonitor.Polling.Batch
import Mathlib.Data.Int.CardIntervalMod

namespace LadderMonitor.Batch

variable {β : Type} {batches : List β} {limit : Nat}

/-- So many batches from a place on, round the end of the list. -/
def window (batches : List β) (start count : Nat) : List β :=
  (List.range count).filterMap fun i => batches[(start + i) % batches.length]?

/-- The place that a cursor stands for, also one from a longer list. -/
def place (batches : List β) (cursor : Int) : Nat := (cursor.fmod batches.length).toNat

theorem select_of_le (hfit : batches.length ≤ limit) (cursor : Int) :
    select batches cursor limit = .ok (batches, 0) := by
  simp [select, hfit]

theorem select_of_lt (hmany : limit < batches.length) (cursor : Int) :
    select batches cursor limit =
      .ok (window batches (place batches cursor) limit,
        ((place batches cursor + limit) % batches.length : Nat)) := by
  have hnonneg : 0 ≤ cursor.fmod batches.length :=
    Int.fmod_nonneg_of_pos cursor (by omega)
  have hplace : cursor.fmod batches.length = (place batches cursor : Int) :=
    (Int.toNat_of_nonneg hnonneg).symm
  have hfit : ¬ (batches.length : Int) ≤ limit := by omega
  have hsome : ¬ batches.length = 0 := by omega
  simp only [select, hfit, hsome, if_false, Int.toNat_natCast]
  rw [hplace, ← Int.natCast_add, Int.fmod_eq_emod_of_nonneg _ (by omega)]
  rfl

/-- A limit is never below zero, so a choice can always be made. -/
theorem exists_select (batches : List β) (cursor : Int) (limit : Nat) :
    ∃ chosen next, select batches cursor limit = .ok (chosen, next) := by
  rcases le_or_gt batches.length limit with hfit | hmany
  · exact ⟨_, _, select_of_le hfit cursor⟩
  · exact ⟨_, _, select_of_lt hmany cursor⟩

theorem place_natCast {start : Nat} (hplace : start < batches.length) :
    place batches (start : Int) = start := by
  unfold place
  rw [Int.fmod_eq_emod_of_nonneg _ (by omega), Int.emod_eq_of_lt (by omega) (by omega)]
  exact Int.toNat_natCast start

/-- A window goes on where another one ends. -/
theorem window_add (start a b : Nat) :
    window batches start (a + b) =
      window batches start a ++ window batches ((start + a) % batches.length) b := by
  unfold window
  rw [List.range_add, List.filterMap_append, List.filterMap_map]
  congr 2
  funext i
  simp only [Function.comp_apply, Nat.mod_add_mod, Nat.add_assoc]

theorem length_window (hsome : 0 < batches.length) (start count : Nat) :
    (window batches start count).length = count := by
  unfold window
  rw [List.length_filterMap_eq_countP, List.countP_eq_length.2, List.length_range]
  intro i _
  simp [Nat.mod_lt _ hsome]

theorem mem_of_mem_window {start count : Nat} {b : β} (hb : b ∈ window batches start count) :
    b ∈ batches := by
  obtain ⟨i, -, hi⟩ := List.mem_filterMap.1 hb
  exact List.mem_of_getElem? hi

private theorem mod_eq_iff_modEq {n j : Nat} (hj : j < n) (start t : Nat) :
    (start + t) % n = j ↔ t ≡ j + (n - start % n) [MOD n] := by
  have hrest : start % n + (n - start % n) = n :=
    Nat.add_sub_cancel' (Nat.mod_lt _ (by omega)).le
  have hback : start + (j + (n - start % n)) ≡ j [MOD n] := by
    calc start + (j + (n - start % n))
        ≡ start % n + (j + (n - start % n)) [MOD n] := (Nat.mod_modEq start n).symm.add_right _
      _ = j + n := by omega
      _ ≡ j [MOD n] := Nat.add_modEq_right
  constructor
  · intro heq
    have hsame : start + t ≡ j [MOD n] := by
      unfold Nat.ModEq
      rw [heq, Nat.mod_eq_of_lt hj]
    exact Nat.ModEq.add_left_cancel' start (hsame.trans hback.symm)
  · intro heq
    have hsame : start + t ≡ j [MOD n] := (heq.add_left start).trans hback
    rw [hsame, Nat.mod_eq_of_lt hj]

/-- A walk of any length round the list visits each batch the mean number of times, rounded down or
up. -/
theorem count_window [DecidableEq β] (hnodup : batches.Nodup) {b : β} (hb : b ∈ batches)
    (start count : Nat) :
    (window batches start count).count b = count / batches.length ∨
      (window batches start count).count b = (count + batches.length - 1) / batches.length := by
  obtain ⟨j, hj, hget⟩ := List.getElem_of_mem hb
  have hsome : 0 < batches.length := by omega
  have hvisit (t : Nat) : (batches[(start + t) % batches.length]? == some b) =
      decide (t ≡ j + (batches.length - start % batches.length) [MOD batches.length]) := by
    rw [Bool.eq_iff_iff, decide_eq_true_iff, ← mod_eq_iff_modEq hj, beq_iff_eq,
      List.getElem?_eq_some_iff]
    constructor
    · rintro ⟨hlt, heq⟩
      exact (hnodup.getElem_inj_iff).1 (heq.trans hget.symm)
    · rintro heq
      exact ⟨Nat.mod_lt _ hsome, by simp only [heq, hget]⟩
  have hcount : (window batches start count).count b =
      Nat.count (· ≡ j + (batches.length - start % batches.length) [MOD batches.length]) count := by
    unfold window Nat.count
    rw [List.count_filterMap]
    congr 1
    funext t
    exact hvisit t
  rw [hcount, Nat.count_modEq_card _ hsome]
  generalize (j + (batches.length - start % batches.length)) % batches.length = v
  by_cases hexact : count % batches.length = 0
  · left
    simp [hexact]
  · have hceil : (count + batches.length - 1) / batches.length = count / batches.length + 1 := by
      have hdiv := Nat.div_add_mod count batches.length
      have hmod := Nat.mod_lt count hsome
      have hsplit : count + batches.length - 1 =
          (count % batches.length - 1) + batches.length * (count / batches.length + 1) := by
        rw [Nat.mul_add]
        omega
      rw [hsplit, Nat.add_mul_div_left _ _ hsome, Nat.div_eq_of_lt (by omega)]
      omega
    rw [hceil]
    split
    · exact .inr rfl
    · exact .inl rfl

theorem nodup_window [DecidableEq β] (hnodup : batches.Nodup) {start count : Nat}
    (hcount : count ≤ batches.length) : (window batches start count).Nodup := by
  rw [List.nodup_iff_count_le_one]
  intro b
  by_cases hb : b ∈ batches
  · have hsome : 0 < batches.length := List.length_pos_of_mem hb
    have hfloor : count / batches.length ≤ 1 := Nat.div_le_of_le_mul (by omega)
    have hceil : (count + batches.length - 1) / batches.length ≤ 1 :=
      Nat.lt_succ_iff.1 (Nat.div_lt_of_lt_mul (by omega))
    rcases count_window hnodup hb start count with heq | heq <;> omega
  · rw [List.count_eq_zero_of_not_mem fun hmem => hb (mem_of_mem_window hmem)]
    omega

theorem mem_of_mem_select {cursor next : Int} {chosen : List β}
    (hselect : select batches cursor limit = .ok (chosen, next)) {b : β} (hb : b ∈ chosen) :
    b ∈ batches := by
  rcases le_or_gt batches.length limit with hfit | hmany
  · rw [select_of_le hfit] at hselect
    obtain ⟨rfl, -⟩ := Prod.mk.inj (Except.ok.inj hselect)
    exact hb
  · rw [select_of_lt hmany] at hselect
    obtain ⟨rfl, -⟩ := Prod.mk.inj (Except.ok.inj hselect)
    exact mem_of_mem_window hb

theorem length_select {cursor next : Int} {chosen : List β}
    (hselect : select batches cursor limit = .ok (chosen, next)) :
    chosen.length = min batches.length limit := by
  rcases le_or_gt batches.length limit with hfit | hmany
  · rw [select_of_le hfit] at hselect
    obtain ⟨rfl, -⟩ := Prod.mk.inj (Except.ok.inj hselect)
    exact (Nat.min_eq_left hfit).symm
  · rw [select_of_lt hmany] at hselect
    obtain ⟨rfl, -⟩ := Prod.mk.inj (Except.ok.inj hselect)
    rw [length_window (by omega), Nat.min_eq_right (by omega)]

theorem nodup_select [DecidableEq β] (hnodup : batches.Nodup) {cursor next : Int} {chosen : List β}
    (hselect : select batches cursor limit = .ok (chosen, next)) : chosen.Nodup := by
  rcases le_or_gt batches.length limit with hfit | hmany
  · rw [select_of_le hfit] at hselect
    obtain ⟨rfl, -⟩ := Prod.mk.inj (Except.ok.inj hselect)
    exact hnodup
  · rw [select_of_lt hmany] at hselect
    obtain ⟨rfl, -⟩ := Prod.mk.inj (Except.ok.inj hselect)
    exact nodup_window hnodup (by omega)

/-- The choices of ticks in a row, with the cursor before and after them. -/
inductive Choices (batches : List β) (limit : Nat) : Int → List (List β) → Int → Prop where
  | nil (cursor : Int) : Choices batches limit cursor [] cursor
  | cons {cursor next last : Int} {chosen : List β} {rest : List (List β)}
      (hselect : select batches cursor limit = .ok (chosen, next))
      (hrest : Choices batches limit next rest last) :
      Choices batches limit cursor (chosen :: rest) last

namespace Choices

variable {cursor last : Int} {choices : List (List β)}

theorem eq_of_le (h : Choices batches limit cursor choices last) (hfit : batches.length ≤ limit) :
    ∀ chosen ∈ choices, chosen = batches := by
  induction h with
  | nil => simp
  | cons hselect _ ih =>
    rw [select_of_le hfit] at hselect
    obtain ⟨rfl, -⟩ := Prod.mk.inj (Except.ok.inj hselect)
    simpa using ih

theorem exists_select (h : Choices batches limit cursor choices last) :
    ∀ chosen ∈ choices, ∃ start next, select batches start limit = .ok (chosen, next) := by
  induction h with
  | nil => simp
  | @cons cursor next _ _ _ hselect _ ih =>
    exact List.forall_mem_cons.2 ⟨⟨cursor, next, hselect⟩, ih⟩

/-- The windows of ticks in a row are one long window. -/
theorem flatten_eq_window (h : Choices batches limit cursor choices last)
    (hmany : limit < batches.length) :
    choices.flatten = window batches (place batches cursor) (choices.length * limit) := by
  induction h with
  | nil => simp [window]
  | cons hselect _ ih =>
    rw [select_of_lt hmany] at hselect
    obtain ⟨rfl, rfl⟩ := Prod.mk.inj (Except.ok.inj hselect)
    rw [List.flatten_cons, ih, place_natCast (Nat.mod_lt _ (by omega)), List.length_cons,
      Nat.add_mul, Nat.one_mul, Nat.add_comm (_ * limit), window_add]

theorem split {before after : List (List β)}
    (h : Choices batches limit cursor (before ++ after) last) :
    ∃ middle, Choices batches limit cursor before middle ∧
      Choices batches limit middle after last := by
  induction before generalizing cursor with
  | nil => exact ⟨cursor, .nil cursor, h⟩
  | cons chosen rest ih =>
    cases h with
    | cons hselect hrest =>
      obtain ⟨middle, hbefore, hafter⟩ := ih hrest
      exact ⟨middle, .cons hselect hbefore, hafter⟩

/-- The turns of a batch are the mean number of turns, rounded down or up. -/
theorem count_flatten [DecidableEq β] (h : Choices batches limit cursor choices last)
    (hnodup : batches.Nodup) (hmany : limit < batches.length) {b : β} (hb : b ∈ batches) :
    choices.flatten.count b = choices.length * limit / batches.length ∨
      choices.flatten.count b =
        (choices.length * limit + batches.length - 1) / batches.length := by
  rw [h.flatten_eq_window hmany]
  exact count_window hnodup hb _ _

/-- No batch is more than one turn ahead of another. -/
theorem count_flatten_le [DecidableEq β] (h : Choices batches limit cursor choices last)
    (hnodup : batches.Nodup) (hmany : limit < batches.length) {b b' : β} (hb : b ∈ batches)
    (hb' : b' ∈ batches) : choices.flatten.count b ≤ choices.flatten.count b' + 1 := by
  have hsome : 0 < batches.length := by omega
  have hround : (choices.length * limit + batches.length - 1) / batches.length ≤
      choices.length * limit / batches.length + 1 := by
    rw [← Nat.add_div_right _ hsome]
    exact Nat.div_le_div_right (by omega)
  have hfloor : choices.length * limit / batches.length ≤
      (choices.length * limit + batches.length - 1) / batches.length :=
    Nat.div_le_div_right (by omega)
  rcases h.count_flatten hnodup hmany hb with heq | heq <;>
    rcases h.count_flatten hnodup hmany hb' with heq' | heq' <;>
    omega

/-- As many ticks as windows fit round the list choose every batch. -/
theorem mem_flatten [DecidableEq β] (h : Choices batches limit cursor choices last)
    (hnodup : batches.Nodup) (henough : batches.length ≤ choices.length * limit) {b : β}
    (hb : b ∈ batches) : ∃ chosen ∈ choices, b ∈ chosen := by
  have hsome : 0 < batches.length := List.length_pos_of_mem hb
  by_cases hmany : limit < batches.length
  · rw [← List.mem_flatten, ← List.count_pos_iff]
    have hfloor : 1 ≤ choices.length * limit / batches.length :=
      (Nat.one_le_div_iff hsome).2 henough
    have hceil : 1 ≤ (choices.length * limit + batches.length - 1) / batches.length :=
      (Nat.one_le_div_iff hsome).2 (by omega)
    rcases h.count_flatten hnodup hmany hb with heq | heq <;> omega
  · have hsome' : 0 < choices.length := by
      by_contra hnone
      have hzero : choices.length = 0 := by omega
      rw [hzero, Nat.zero_mul] at henough
      omega
    obtain ⟨chosen, hchosen⟩ := List.exists_mem_of_length_pos hsome'
    refine ⟨chosen, hchosen, ?_⟩
    rw [h.eq_of_le (by omega) chosen hchosen]
    exact hb

end Choices

end LadderMonitor.Batch
