import LadderMonitor.Proofs.Monitor.RoundRobin
import LadderMonitor.Proofs.Monitor.Turn
import LadderMonitor.Proofs.Polling.Gathering

namespace LadderMonitor

/-- The range that was asked of the device. -/
def Event.read? : Event → Option ByteRange
  | asked address size => some ⟨address, size⟩
  | _ => none

/-- Whether a turn begins a tick, if it may. -/
def Monitor.Turn.begins : Turn → Bool
  | tick | wake _ => true
  | _ => false

namespace Monitor

/-- The ranges that were asked of the device so far, the latest first. -/
def asked (m : Monitor) : List ByteRange := m.journal.filterMap Event.read?

/-- Whether a tick may ask for some ranges. -/
structure WithinLimits (m : Monitor) (reads : List ByteRange) : Prop where
  count : reads.length ≤ m.settings.maxBatchesPerTick
  nonempty : ∀ read ∈ reads, 1 ≤ read.size
  /-- Only a range that is registered as it is may be longer than a read that joins ranges. -/
  size : ∀ read ∈ reads, read.size ≤ m.settings.maxBatchSize ∨ ∃ r ∈ m.registry, r.key.range = read

variable {m m' : Monitor} {react : Reactor}

theorem withinLimits_nil (m : Monitor) : m.WithinLimits [] where
  count := Nat.zero_le _
  nonempty := by simp
  size := by simp

theorem withinLimits_of_select (hsound : m.registry.Sound) {chosen : List (Batch Registration)}
    {next : Int}
    (hselect : Batch.select m.batches m.cursor m.settings.maxBatchesPerTick = .ok (chosen, next)) :
    m.WithinLimits (chosen.map (·.range)).reverse where
  count := by
    rw [List.length_reverse, List.length_map, Batch.length_select hselect]
    exact Nat.min_le_right _ _
  nonempty := by
    intro read hread
    obtain ⟨b, hb, rfl⟩ := List.mem_map.1 (List.mem_reverse.1 hread)
    exact hsound.size_of_mem_batches (Batch.mem_of_mem_select hselect hb)
  size := by
    intro read hread
    obtain ⟨b, hb, rfl⟩ := List.mem_map.1 (List.mem_reverse.1 hread)
    have hmem := Batch.mem_of_mem_select hselect hb
    have hcluster : b ∈ Batch.cluster (·.key.range) m.settings.gapThreshold
        m.settings.maxBatchSize m.registry := by rwa [← Registry.batches_eq]
    have hformed := Batch.formed_cluster (fun r hr => (hsound.ranges r hr).2) b hcluster
    -- A batch that is too long is as long as its first item.
    obtain ⟨first, rest, hitems, -, hsize | hsame⟩ := hformed.opened
    · exact .inl hsize
    · have hfirst : first ∈ b.items := by simp [hitems]
      exact .inr ⟨first, Registry.mem_batches_items.1 ⟨b, hmem, hfirst⟩, hsame⟩

theorem asked_of_journal {batches : List (Batch Registration)}
    (hjournal : m'.journal =
      (batches.map fun b => .asked b.start b.size).reverse ++ m.journal) :
    m'.asked = (batches.map (·.range)).reverse ++ m.asked := by
  have hread : Event.read? ∘ (fun b : Batch Registration => Event.asked b.start b.size) =
      Option.some ∘ (·.range) := rfl
  rw [asked, hjournal, List.filterMap_append, List.filterMap_reverse, List.filterMap_map, hread,
    List.filterMap_eq_map, asked]

theorem Begins.within_limits {owner : Option Nat} {answer : Except Fault (Option Tick)}
    (h : Begins owner m answer m') (hsound : m.registry.Sound) :
    ∃ reads, m'.asked = reads ++ m.asked ∧ m.WithinLimits reads := by
  rcases answer with fault | _ | tick
  · cases h
    exact ⟨[], rfl, m.withinLimits_nil⟩
  · cases h
    exact ⟨[], rfl, m.withinLimits_nil⟩
  · exact ⟨_, asked_of_journal h.journal, withinLimits_of_select hsound (h.select hsound)⟩

theorem Wakes.within_limits {id : Nat} {tick : Option Tick} (h : Wakes id m m' tick)
    (hsound : m.registry.Sound) : ∃ reads, m'.asked = reads ++ m.asked ∧ m.WithinLimits reads := by
  cases h with
  | ended => exact ⟨[], rfl, m.withinLimits_nil⟩
  | slept _ _ _ _ _ hjournal =>
    rcases hjournal with rfl | rfl
    · exact ⟨[], rfl, m.withinLimits_nil⟩
    · exact ⟨[], rfl, m.withinLimits_nil⟩
  | entered _ _ _ _ hbegins =>
    obtain ⟨reads, hasked, hlimits⟩ := hbegins.within_limits hsound
    exact ⟨reads, hasked, hlimits.count, hlimits.nonempty, hlimits.size⟩

/-- Nothing is asked of the device from one state to another. -/
def Unasked (m m' : Monitor) : Prop := m'.asked = m.asked

theorem lasting_unasked : Lasting Unasked where
  refl := fun _ => rfl
  trans := fun h h' => Eq.trans h' h

theorem unasked_register (m : Monitor) (key : RegistrationKey) (s : Subscriber) :
    Unasked m (m.register key s).1 := by
  obtain ⟨_, _, _, _, -, heq⟩ := m.register_eq key s
  rw [heq]
  rfl

theorem unasked_unregister (m : Monitor) (key : RegistrationKey) (s : Subscriber) :
    Unasked m (m.unregister key s) := by
  obtain ⟨_, heq⟩ := m.unregister_eq key s
  rw [heq]
  rfl

theorem unasked_unregisterAll (m : Monitor) (requester : Requester) :
    Unasked m (m.unregisterAll requester) := by
  obtain ⟨_, heq⟩ := m.unregisterAll_eq requester
  rw [heq]
  rfl

theorem overlooksWatching_unasked : OverlooksWatching Unasked := by
  refine .of_register (.of_shown lasting_unasked (fun _ _ => rfl) (fun _ _ => rfl)
    fun _ _ _ _ _ => rfl) (fun m event hcall => ?_) (fun _ => rfl)
    (fun m _ _ _ _ => m.unasked_register _ _) fun m _ s => m.unasked_unregister _ s
  cases event with
  | delivered | told => rfl
  | _ => cases hcall

theorem unasked_sync (m : Monitor) (requester : Requester) (net : Nat) :
    Unasked m (m.sync requester net).1 := by
  refine lasting_unasked.sync net ?_ (fun m _ => m.unasked_register _ _)
    fun m _ => m.unasked_unregister _ _
  rcases m.marker_cases requester with ⟨s, -, heq⟩ | ⟨-, heq⟩
  · rw [heq]
    rfl
  · rw [heq]
    rfl

theorem unasked_perform (hreact : react.Within Unasked) (command : Command) (m : Monitor) :
    Unasked m (m.perform react command).1 := by
  have hwatching := overlooksWatching_unasked
  cases command with
  | register key s => exact m.unasked_register key s
  | unregister key s => exact m.unasked_unregister key s
  | unregisterAll requester => exact m.unasked_unregisterAll requester
  | attach net => exact hwatching.attach m net rfl fun m => m.unasked_sync _ net
  | detach net => exact lasting_unasked.detach net rfl fun m => m.unasked_unregisterAll _
  | edit edit => rfl
  | reset =>
    exact hwatching.reset m (fun entry _ m => m.unasked_sync entry.1 entry.2) fun m =>
      hwatching.resetMemory m hreact rfl
  | _ =>
    refine hwatching.toOverlooks.perform hwatching.toOverlooksEntries ?_ react rfl m
    intro m v hswitch
    cases v with
    | start =>
      obtain ⟨_, heq⟩ := m.start_eq
      rw [move, heq]
      rfl
    | listen listener =>
      obtain ⟨_, heq⟩ := m.listen_eq listener
      rw [move, heq]
      rfl
    | unlisten | stop | connected | active | device => rfl
    | _ => cases hswitch

theorem within_reactor_unasked : reactor.Within Unasked :=
  overlooksWatching_unasked.toOverlooks.within_reactor (fun _ => True)
    (fun _ _ hunasked => hunasked fun _ _ _ _ => trivial)
    fun _ hreact command _ m => unasked_perform hreact command m

/-- A turn that does not begin a tick asks for nothing. -/
theorem unasked_turn (m : Monitor) {v : Turn} (hbegins : v.begins = false) :
    Unasked m (m.turn reactor v) := by
  have hwatching := overlooksWatching_unasked
  cases v with
  | tick | wake => cases hbegins
  | settle | clock => rfl
  | command command => exact unasked_perform within_reactor_unasked command m
  | reply ticket answer =>
    rw [turn]
    split
    · rename_i read _
      cases answer with
      | error fault => rfl
      | ok data =>
        have hserved := hwatching.foldl
          (fun m r => hwatching.serve m within_reactor_unasked read.batch.start data r)
          read.batch.items ((m.strike read.ticket).store read.batch.start data)
        exact hserved
    · rfl
  | conclude tick =>
    rw [turn]
    split
    · rename_i tick' _
      obtain ⟨_, heq⟩ := (m.tellAll reactor).closeTick_eq tick'
      rw [endTick, heq]
      exact hwatching.tellAll m within_reactor_unasked
    · rfl

theorem reads_of_turn (m : Monitor) (hsound : m.registry.Sound) (v : Turn) :
    ∃ reads, (m.turn reactor v).asked = reads ++ m.asked ∧ m.WithinLimits reads ∧
      (v.begins = false → reads = []) := by
  cases hbegins : v.begins with
  | false => exact ⟨[], m.unasked_turn hbegins, m.withinLimits_nil, fun _ => rfl⟩
  | true =>
    suffices hlimits : ∃ reads, (m.turn reactor v).asked = reads ++ m.asked ∧
        m.WithinLimits reads by
      obtain ⟨reads, hasked, hreads⟩ := hlimits
      exact ⟨reads, hasked, hreads, nofun⟩
    cases v with
    | tick => exact (m.beginTick_begins none).within_limits hsound
    | wake id =>
      rw [turn]
      split
      · exact (m.wakeUp_wakes id).within_limits hsound
      · exact ⟨[], rfl, m.withinLimits_nil⟩
    | _ => cases hbegins

/-- Whatever happens, no more is asked for than the ticks that begin may ask for together. What is
longer than allowed was registered like that at some time. -/
theorem Reachable.reads_of_turns (h : m.Reachable) (list : List Turn) :
    ∃ reads, (m.turns reactor list).asked = reads ++ m.asked ∧
      reads.length ≤ m.settings.maxBatchesPerTick * list.countP (·.begins) ∧
      ∀ read ∈ reads, 1 ≤ read.size ∧
        (read.size ≤ m.settings.maxBatchSize ∨ ∃ before, before <+: list ∧
          ∃ r ∈ (m.turns reactor before).registry, r.key.range = read) := by
  induction list generalizing m with
  | nil => exact ⟨[], rfl, Nat.zero_le _, by simp⟩
  | cons v rest ih =>
    obtain ⟨reads, hasked, hlimits, hnone⟩ := m.reads_of_turn h.sound.registry v
    obtain ⟨more, hmore, hcount, hsizes⟩ := ih (h.turns inner_reactor [v])
    have hsettings : (m.turn reactor v).settings = m.settings :=
      (inner_reactor.runs_turn m v).settings
    refine ⟨more ++ reads, ?_, ?_, ?_⟩
    · rw [List.append_assoc, ← hasked]
      exact hmore
    · have hfirst : reads.length ≤ m.settings.maxBatchesPerTick * if v.begins then 1 else 0 := by
        split
        · rw [Nat.mul_one]
          exact hlimits.count
        · rename_i hstays
          simp [hnone (by simpa using hstays)]
      rw [Monitor.turns, List.foldl_cons, List.foldl_nil, hsettings] at hcount
      rw [List.length_append, List.countP_cons, Nat.mul_add]
      omega
    · intro read hread
      rcases List.mem_append.1 hread with hlater | hnow
      · obtain ⟨hsome, hsize | ⟨before, hbefore, hregistered⟩⟩ := hsizes read hlater
        · rw [Monitor.turns, List.foldl_cons, List.foldl_nil, hsettings] at hsize
          exact ⟨hsome, .inl hsize⟩
        · exact ⟨hsome, .inr ⟨v :: before, List.cons_prefix_cons.2 ⟨rfl, hbefore⟩, hregistered⟩⟩
      · obtain hsize | hregistered := hlimits.size read hnow
        · exact ⟨hlimits.nonempty read hnow, .inl hsize⟩
        · exact ⟨hlimits.nonempty read hnow, .inr ⟨[], List.nil_prefix, hregistered⟩⟩

/-- At no time is more asked of the device than a tick may ask for.

Only a turn that begins a tick asks for anything, wherever the cursor stands. It asks for no more
ranges than a tick may, each of one byte at least, and each within the size that reads are allowed
unless it is the range of one registration. -/
theorem Reachable.reads_within_limits (h : m.Reachable) (cursor : Int) (v : Turn) :
    ∃ reads, ({ m with cursor }.turn reactor v).asked = reads ++ m.asked ∧ m.WithinLimits reads ∧
      (v.begins = false → reads = []) := by
  obtain ⟨reads, hasked, hlimits, hnone⟩ := reads_of_turn { m with cursor } h.sound.registry v
  exact ⟨reads, hasked, ⟨hlimits.count, hlimits.nonempty, hlimits.size⟩, hnone⟩

/-- A monitor that joins ranges up to four bytes and makes two reads per tick. One of its ranges is
longer than that by itself. -/
def wide : Monitor :=
  (create { maxBatchSize := 4, maxBatchesPerTick := 2 } {}).run
    [.register ⟨.named "hall", ⟨0, 6⟩⟩ (.outside "lamp"),
      .register ⟨.named "desk", ⟨8, 2⟩⟩ (.outside "lamp"),
      .register ⟨.named "door", ⟨10, 2⟩⟩ (.outside "lamp"),
      .register ⟨.named "yard", ⟨20, 1⟩⟩ (.outside "lamp")]

theorem wide_reads_within_limits :
    wide.Reachable ∧ ({ wide with cursor := 4 }.turn reactor .tick).asked = [⟨20, 1⟩, ⟨8, 4⟩] ∧
      ∃ reads, ({ wide with cursor := 4 }.turn reactor .tick).asked = reads ++ wide.asked ∧
        wide.WithinLimits reads := by
  have hreachable : wide.Reachable := (Reachable.fresh (fresh_create _ _)).run _
  obtain ⟨reads, hasked, hlimits, -⟩ := Reachable.reads_within_limits hreachable 4 .tick
  exact ⟨hreachable, by decide +kernel, reads, hasked, hlimits⟩

/-- A range that is longer than reads may be is read as it is. -/
theorem long_range_read_whole :
    wide.Reachable ∧ wide.asked = [] ∧ wide.settings.maxBatchSize = 4 ∧
      (wide.turn reactor .tick).asked = [⟨8, 4⟩, ⟨0, 6⟩] :=
  ⟨(Reachable.fresh (fresh_create _ _)).run _, by decide +kernel, rfl, by decide +kernel⟩

end Monitor

end LadderMonitor
