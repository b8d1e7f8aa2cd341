import LadderMonitor.Proofs.Monitor.Sound
import LadderMonitor.Proofs.Polling.Rotation

namespace LadderMonitor

/-- The batches that a tick has asked for. -/
def Tick.batches (t : Tick) : List (Batch Registration) := t.pending.map (·.batch)

namespace Monitor

/-- The batches of the registrations. -/
def batches (m : Monitor) : List (Batch Registration) :=
  m.registry.batches m.settings.gapThreshold m.settings.maxBatchSize

/-- The tick that a move begins, if it begins one. -/
def begun? (m : Monitor) : Move → Option Tick
  | .tick =>
    match m.beginTick none with
    | (.ok tick, _) => tick
    | (.error _, _) => none
  | .wake id => if m.Asleep id then (m.wakeUp id).2 else none
  | _ => none

/-- What the ticks that begin in a run ask for, tick by tick. -/
def choices (m : Monitor) : List Move → List (List (Batch Registration))
  | [] => []
  | v :: rest => ((m.begun? v).map Tick.batches).toList ++ choices (m.move v) rest

variable {m m' : Monitor}

theorem Begins.cursor_eq {owner : Option Nat} {answer : Except Fault (Option Tick)}
    (h : Begins owner m answer m') (hnone : ∀ tick, answer ≠ .ok (some tick)) :
    m'.cursor = m.cursor := by
  cases h with
  | failed => rfl
  | idle => rfl
  | asked => exact absurd rfl (hnone _)

/-- A tick asks for all batches that it chooses, since none is empty. -/
theorem Begins.select {owner : Option Nat} {tick : Tick}
    (h : Begins owner m (.ok (some tick)) m') (hsound : m.registry.Sound) :
    Batch.select m.batches m.cursor m.settings.maxBatchesPerTick =
      .ok (tick.batches, m'.cursor) := by
  cases h with
  | asked connected active chosen cursor reads _ _ _ hselect hreads htick =>
    have hsizes : ∀ b ∈ chosen, 0 < b.size := fun b hb =>
      hsound.size_of_mem_batches (Batch.mem_of_mem_select hselect hb)
    have hall : reads = chosen := by
      rw [hreads, List.filter_eq_self]
      exact fun b hb => decide_eq_true (hsizes b hb)
    have hbatches : tick.batches = chosen := by
      rw [Tick.batches, htick, map_batch_readsFrom, hall]
    rw [hbatches]
    exact hselect

/-- A tick asks for its batches in order. -/
theorem Begins.journal {owner : Option Nat} {tick : Tick}
    (h : Begins owner m (.ok (some tick)) m') :
    m'.journal = (tick.batches.map fun b => .asked b.start b.size).reverse ++ m.journal := by
  cases h with
  | asked _ _ _ _ reads _ _ _ _ _ htick => rw [Tick.batches, htick, map_batch_readsFrom]

/-- A move takes the next window when it begins a tick, and leaves the cursor where it is when it
does not. -/
theorem cursor_move (hsound : m.registry.Sound) {v : Move} (hclear : v ≠ .clear) :
    (m.begun? v = none → (m.move v).cursor = m.cursor) ∧
      ∀ tick, m.begun? v = some tick →
        Batch.select m.batches m.cursor m.settings.maxBatchesPerTick =
          .ok (tick.batches, (m.move v).cursor) := by
  by_cases hinner : v.inner
  · have hnone : m.begun? v = none := by
      cases v with
      | tick | wake => cases hinner
      | _ => rfl
    exact ⟨fun _ => cursor_move_of_inner hinner hclear m, by simp [hnone]⟩
  · cases v with
    | tick =>
      have hbegins := m.beginTick_begins none
      rw [begun?, move]
      generalize m.beginTick none = result at hbegins
      rcases result with ⟨answer, m'⟩
      cases answer with
      | error fault => exact ⟨fun _ => hbegins.cursor_eq (by simp), by simp⟩
      | ok tick =>
        refine ⟨fun hnone => hbegins.cursor_eq ?_, fun tick' hsome => ?_⟩
        · rw [show tick = none from hnone]
          simp
        · obtain rfl : tick = some tick' := hsome
          exact hbegins.select hsound
    | wake id =>
      rw [begun?, move]
      by_cases hasleep : m.Asleep id
      · rw [if_pos hasleep, if_pos hasleep]
        have hwakes := m.wakeUp_wakes id
        generalize m.wakeUp id = result at hwakes
        rcases result with ⟨m', tick⟩
        cases hwakes with
        | ended => exact ⟨fun _ => rfl, by simp⟩
        | slept => exact ⟨fun _ => rfl, by simp⟩
        | entered connected active tick hcurrent hbegins =>
          refine ⟨by simp, fun tick' hsome => ?_⟩
          obtain rfl := Option.some.inj hsome
          exact hbegins.select hsound
      · rw [if_neg hasleep, if_neg hasleep]
        exact ⟨fun _ => rfl, by simp⟩
    | close tick =>
      refine ⟨fun _ => ?_, by simp [begun?]⟩
      rcases m.move_close_cases tick with heq | ⟨-, heq⟩
      · rw [heq]
      · rw [heq, (m.closeTick_eq tick).choose_spec]
    | settle | strike | store | clock => exact ⟨fun _ => rfl, by simp [begun?]⟩
    | _ => exact absurd rfl hinner

/-- The ticks of a run take one window behind the other. -/
theorem choices_run (hsound : m.registry.Sound) {moves : List Move} (hclear : .clear ∉ moves)
    (hstill : ∀ before, before <+: moves → (m.run before).registry = m.registry) :
    Batch.Choices m.batches m.settings.maxBatchesPerTick m.cursor (m.choices moves)
      (m.run moves).cursor := by
  induction moves generalizing m with
  | nil => exact .nil m.cursor
  | cons v rest ih =>
    rw [List.mem_cons, not_or] at hclear
    obtain ⟨hv, hrest⟩ := hclear
    have hregistry : (m.move v).registry = m.registry :=
      hstill [v] (by simp)
    have hbatches : (m.move v).batches = m.batches := by
      rw [batches, hregistry, settings_move, batches]
    have hlater := ih (m := m.move v) (by rw [hregistry]; exact hsound) hrest
      fun before hbefore => by
        rw [hregistry]
        exact hstill (v :: before) (List.cons_prefix_cons.2 ⟨rfl, hbefore⟩)
    rw [hbatches, settings_move] at hlater
    obtain ⟨hquiet, hbegun⟩ := m.cursor_move hsound (Ne.symm hv)
    rw [choices]
    cases hbegins : m.begun? v with
    | none =>
      rw [hquiet hbegins] at hlater
      exact hlater
    | some tick => exact .cons (hbegun tick hbegins) hlater

/-- While the registrations stay and nothing is reset, the ticks of a run choose in turn.

With `n` batches and a limit of `L`, every tick asks for `min n L` different batches: for all of
them if the limit allows it, and otherwise after `k` ticks each batch has had the mean `k * L / n`
of all turns, rounded down or up. So every registered range is asked for in any `n / L` ticks in a
row, rounded up. The ticks may be those of poll tasks or others, anything may happen between them,
and the cursor may start anywhere. -/
theorem Reachable.round_robin (h : m.Reachable) (hlimit : 0 < m.settings.maxBatchesPerTick)
    {moves : List Move} (hclear : .clear ∉ moves)
    (hstill : ∀ before, before <+: moves → (m.run before).registry = m.registry) :
    let n := m.batches.length
    let L := m.settings.maxBatchesPerTick
    let k := (m.choices moves).length
    (∀ chosen ∈ m.choices moves,
      chosen.length = min n L ∧ chosen.Nodup ∧ ∀ b ∈ chosen, b ∈ m.batches) ∧
    (n ≤ L → ∀ chosen ∈ m.choices moves, ∀ b ∈ m.batches, b ∈ chosen) ∧
    (L < n → ∀ b ∈ m.batches,
      (m.choices moves).flatten.count b = k * L / n ∨
        (m.choices moves).flatten.count b = (k * L + n - 1) / n) ∧
    (L < n → ∀ b ∈ m.batches, ∀ b' ∈ m.batches,
      (m.choices moves).flatten.count b ≤ (m.choices moves).flatten.count b' + 1) ∧
    ∀ before inside after, m.choices moves = before ++ inside ++ after →
      inside.length = (n + L - 1) / L →
      ∀ r ∈ m.registry, ∃ chosen ∈ inside, ∃ b ∈ chosen,
        r ∈ b.items ∧ b.start ≤ r.key.range.start ∧ r.key.range.stop ≤ b.stop := by
  have hsound := h.sound.registry
  have hnodup : m.batches.Nodup := hsound.nodup_batches _ _
  have hchoices := choices_run hsound hclear hstill
  refine ⟨?_, ?_, ?_, ?_, ?_⟩
  · intro chosen hchosen
    obtain ⟨start, next, hselect⟩ := hchoices.exists_select chosen hchosen
    exact ⟨Batch.length_select hselect, Batch.nodup_select hnodup hselect,
      fun b hb => Batch.mem_of_mem_select hselect hb⟩
  · intro hfit chosen hchosen b hb
    rwa [hchoices.eq_of_le hfit chosen hchosen]
  · intro hmany b hb
    exact hchoices.count_flatten hnodup hmany hb
  · intro hmany b hb b' hb'
    exact hchoices.count_flatten_le hnodup hmany hb hb'
  · intro before inside after hsplit hlength r hr
    rw [hsplit] at hchoices
    obtain ⟨_, hbefore, -⟩ := hchoices.split
    obtain ⟨_, -, hinside⟩ := hbefore.split
    -- So many ticks go round all batches at least once.
    have henough : m.batches.length ≤ inside.length * m.settings.maxBatchesPerTick := by
      have hround :=
        Nat.lt_mul_div_succ (m.batches.length + m.settings.maxBatchesPerTick - 1) hlimit
      rw [hlength, Nat.mul_comm]
      rw [Nat.mul_add, Nat.mul_one] at hround
      omega
    obtain ⟨b, hb, hitem⟩ := Registry.mem_batches_items.2 hr
    obtain ⟨chosen, hchosen, hmem⟩ := hinside.mem_flatten hnodup henough hb
    obtain ⟨hstart, hstop⟩ := (Registry.covers_of_mem_batches hb).inside r hitem
    exact ⟨chosen, hchosen, b, hmem, hitem, hstart, hstop⟩

/-- A monitor of three lamps far apart that reads two of them in a tick. -/
def lamps : Monitor :=
  (create { maxBatchesPerTick := 2 } {}).run
    [.register ⟨.named "first", ⟨0, 1⟩⟩ (.outside "lamp"),
      .register ⟨.named "second", ⟨1000, 1⟩⟩ (.outside "lamp"),
      .register ⟨.named "third", ⟨2000, 1⟩⟩ (.outside "lamp")]

theorem lamps_round_robin :
    lamps.batches.length = 3 ∧ (lamps.choices [.tick, .tick, .stop, .tick]).length = 3 ∧
      lamps.Reachable ∧ ∀ b ∈ lamps.batches,
        (lamps.choices [.tick, .tick, .stop, .tick]).flatten.count b = 2 := by
  have hbatches : lamps.batches.length = 3 := by decide +kernel
  have hchoices : (lamps.choices [.tick, .tick, .stop, .tick]).length = 3 := by decide +kernel
  have hreachable : lamps.Reachable := (Reachable.fresh (fresh_create _ {})).run _
  have hstill : ∀ before, before <+: [.tick, .tick, .stop, .tick] →
      (lamps.run before).registry = lamps.registry := by
    intro before hbefore
    rw [← List.mem_inits] at hbefore
    simp only [List.inits, List.map_cons, List.map_nil, List.mem_cons, List.not_mem_nil,
      or_false] at hbefore
    rcases hbefore with rfl | rfl | rfl | rfl | rfl <;> decide +kernel
  obtain ⟨-, -, hcount, -, -⟩ :=
    Reachable.round_robin hreachable (by decide +kernel) (by simp) hstill
  refine ⟨hbatches, hchoices, hreachable, fun b hb => ?_⟩
  have hlimit : lamps.settings.maxBatchesPerTick = 2 := by decide +kernel
  rw [hbatches, hchoices, hlimit] at hcount
  rcases hcount (by decide) b hb with heq | heq <;> simpa using heq

end Monitor

end LadderMonitor
