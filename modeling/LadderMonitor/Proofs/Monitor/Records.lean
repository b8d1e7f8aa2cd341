import LadderMonitor.Proofs.Monitor.Sound

namespace LadderMonitor.Monitor

/-- The registrations, with those that were removed as a whole. -/
def records (m : Monitor) : List Registration := m.registry ++ m.retired

/-- Nothing has been registered or attached yet. The settings, the device, the predicates, the
memory and the networks may be any. -/
structure Untouched (m : Monitor) : Prop extends Fresh m where
  retired : m.retired = []
  attached : m.display.attached = []
  markers : m.display.markers = []
  due : m.display.due = []

theorem untouched_create (settings : Settings) (device : Device) :
    (create settings device).Untouched :=
  ⟨fresh_create settings device, rfl, rfl, rfl, rfl⟩

theorem untouched_createDisplay (settings : Settings) (device : Device) (workspace : Workspace) :
    (createDisplay settings device workspace).Untouched :=
  ⟨fresh_createDisplay settings device workspace, rfl, rfl, rfl, rfl⟩

variable {m m' : Monitor} {v : Move} {r : Registration} {serial : Nat} {s : Subscriber}

theorem exists_record_of_subscribersOf (hs : s ∈ m.subscribersOf serial) :
    ∃ x ∈ m.records, x.serial = serial ∧ s ∈ x.subscribers := by
  unfold subscribersOf at hs
  split at hs
  · rename_i x hfind
    exact ⟨x, List.mem_append_left _ (List.mem_of_find?_eq_some hfind),
      by simpa using List.find?_some hfind, hs⟩
  · split at hs
    · rename_i x hfind
      exact ⟨x, List.mem_append_right _ (List.mem_of_find?_eq_some hfind),
        by simpa using List.find?_some hfind, hs⟩
    · cases hs

/-- Where a record comes from: it was there before with nobody more than the subscriber that the
move registers, or the move opened it. -/
inductive Origin (m : Monitor) (v : Move) (x : Registration) : Prop
  | kept (old : Registration) (hold : old ∈ m.records) (hserial : x.serial = old.serial)
      (hkey : x.key = old.key)
      (hsubscribers : ∀ s ∈ x.subscribers, s ∈ old.subscribers ∨ v = .register x.key s)
  | opened (s : Subscriber) (hv : v = .register x.key s) (hx : x = .single m.nextStamp x.key s)
      (hstamp : m.nextStamp < (m.move v).nextStamp)

theorem Origin.of_mem (hr : r ∈ m.records) : Origin m v r :=
  .kept r hr rfl rfl fun _ => .inl

/-- A registration enters its subscriber, if the range can be polled. -/
theorem register_records (m : Monitor) (key : RegistrationKey) (s : Subscriber) :
    (m.register key s).1.retired = m.retired ∧
      ((m.register key s).1.registry = m.registry ∨
        (m.register key s).1.registry = Registry.add m.nextStamp key s m.registry ∧
          (m.register key s).1.nextStamp = m.nextStamp + 1) := by
  rcases m.register_cases key s with heq | ⟨-, heq⟩
  · rw [heq]
    exact ⟨rfl, .inl rfl⟩
  · obtain ⟨_, _, hstarted⟩ := (m.enter key s).startIfActive_eq
    rw [heq, hstarted]
    exact ⟨rfl, .inr ⟨rfl, rfl⟩⟩

theorem records_unregisterAll (m : Monitor) (requester : Requester) :
    ((m.unregisterAll requester).records).Perm m.records := by
  obtain ⟨_, heq⟩ := m.unregisterAll_eq requester
  have hsplit := List.filter_append_perm (fun r : Registration => r.key.requester ≠ requester)
    m.registry
  rw [heq, records, ← List.append_assoc]
  refine List.Perm.append_right m.retired (.trans ?_ hsplit)
  simp [Registry.removeAll, Registry.ofRequester]

/-- Whether a move neither registers nor removes. -/
def Move.sparesRecords : Move → Bool
  | register .. | unregister .. | unregisterAll _ => false
  | _ => true

theorem records_move_of_spares (hspares : v.sparesRecords) (m : Monitor) :
    (m.move v).registry = m.registry ∧ (m.move v).retired = m.retired := by
  have hbegins {owner : Option Nat} {m m' : Monitor} {answer : Except Fault (Option Tick)}
      (h : Begins owner m answer m') : m'.registry = m.registry ∧ m'.retired = m.retired := by
    cases h <;> exact ⟨rfl, rfl⟩
  have hwakes {id : Nat} {m m' : Monitor} {tick : Option Tick} (h : Wakes id m m' tick) :
      m'.registry = m.registry ∧ m'.retired = m.retired := by
    cases h with
    | ended | slept => exact ⟨rfl, rfl⟩
    | entered _ _ _ _ hbegun => exact ⟨(hbegins hbegun).1, (hbegins hbegun).2⟩
  cases v with
  | register | unregister | unregisterAll => cases hspares
  | start =>
    obtain ⟨_, heq⟩ := m.start_eq
    rw [move, heq]
    exact ⟨rfl, rfl⟩
  | listen listener =>
    obtain ⟨_, heq⟩ := m.listen_eq listener
    rw [move, heq]
    exact ⟨rfl, rfl⟩
  | tick => exact hbegins (m.beginTick_begins none)
  | wake id =>
    rcases m.move_wake_cases id with heq | ⟨-, heq⟩
    · rw [heq]
      exact ⟨rfl, rfl⟩
    · rw [heq]
      exact hwakes (m.wakeUp_wakes id)
  | close tick =>
    rcases m.move_close_cases tick with heq | ⟨-, heq⟩
    · rw [heq]
      exact ⟨rfl, rfl⟩
    · obtain ⟨_, hclosed⟩ := m.closeTick_eq tick
      rw [heq, hclosed]
      exact ⟨rfl, rfl⟩
  | _ => exact ⟨rfl, rfl⟩

/-- Whether a move registers or removes in the name of a requester. -/
def Move.Touches (requester : Requester) : Move → Prop
  | register key _ | unregister key _ => key.requester = requester
  | unregisterAll other => other = requester
  | _ => False

/-- What is registered in the name of others stays. -/
theorem mem_registry_move (m : Monitor) (hv : ¬ v.Touches r.key.requester) :
    r ∈ (m.move v).registry ↔ r ∈ m.registry := by
  by_cases hspares : v.sparesRecords
  · rw [(records_move_of_spares hspares m).1]
  · cases v with
    | register key s =>
      have hne : r.key ≠ key := fun heq => hv (by rw [Move.Touches, heq])
      rw [move]
      rcases (m.register_records key s).2 with heq | ⟨heq, -⟩
      · rw [heq]
      · rw [heq, Registry.mem_add_of_ne hne]
    | unregister key s =>
      have hne : r.key ≠ key := fun heq => hv (by rw [Move.Touches, heq])
      obtain ⟨_, heq⟩ := m.unregister_eq key s
      rw [move, heq, Registry.mem_remove_of_ne hne]
    | unregisterAll requester =>
      have hne : r.key.requester ≠ requester := fun heq => hv heq.symm
      obtain ⟨_, heq⟩ := m.unregisterAll_eq requester
      rw [move, heq, Registry.removeAll, List.mem_filter, decide_eq_true_iff, and_iff_left hne]
    | _ => exact absurd rfl hspares

theorem holds_move (m : Monitor) {key : RegistrationKey} (hv : ¬ v.Touches key.requester) :
    (m.move v).registry.Holds key s ↔ m.registry.Holds key s := by
  constructor
  · rintro ⟨r, hr, rfl, hs⟩
    exact ⟨r, (m.mem_registry_move hv).1 hr, rfl, hs⟩
  · rintro ⟨r, hr, rfl, hs⟩
    exact ⟨r, (m.mem_registry_move hv).2 hr, rfl, hs⟩

theorem origin_move (m : Monitor) (v : Move) {x : Registration} (hx : x ∈ (m.move v).records) :
    Origin m v x := by
  by_cases hspares : v.sparesRecords
  · obtain ⟨hregistry, hretired⟩ := records_move_of_spares hspares m
    rw [records, hregistry, hretired] at hx
    exact .of_mem hx
  · cases v with
    | register key s =>
      obtain ⟨hretired, hregistry⟩ := m.register_records key s
      rcases List.mem_append.1 hx with hx | hx
      · change x ∈ (m.register key s).1.registry at hx
        rcases hregistry with hregistry | ⟨hregistry, hstamp⟩
        · rw [hregistry] at hx
          exact .of_mem (List.mem_append_left _ hx)
        · rw [hregistry] at hx
          rcases Registry.mem_add hx with ⟨old, hold, hserial, hkey, hsubscribers⟩ | rfl
          · refine .kept old (List.mem_append_left _ hold) hserial hkey fun s' hs' => ?_
            exact (hsubscribers s' hs').imp_right fun ⟨hk, hs⟩ => by rw [hk, hs]
          · exact .opened s rfl rfl (by rw [move, hstamp]; exact Nat.lt_succ_self _)
      · change x ∈ (m.register key s).1.retired at hx
        rw [hretired] at hx
        exact .of_mem (List.mem_append_right _ hx)
    | unregister key s =>
      obtain ⟨_, heq⟩ := m.unregister_eq key s
      rw [move, heq] at hx
      rcases List.mem_append.1 hx with hx | hx
      · obtain ⟨old, hold, hserial, hkey, hsubscribers⟩ := Registry.mem_remove hx
        exact .kept old (List.mem_append_left _ hold) hserial hkey
          fun s' hs' => .inl (hsubscribers s' hs')
      · exact .of_mem (List.mem_append_right _ hx)
    | unregisterAll requester =>
      exact .of_mem ((m.records_unregisterAll requester).mem_iff.1 hx)
    | _ => exact absurd rfl hspares

/-- Whether a read has been asked and waits for its answer. -/
def Waits (m : Monitor) (read : PendingRead) : Prop := ∃ tick ∈ m.ticks, read ∈ tick.pending

/-- A read that waits has waited before, or it is asked now, for what is registered now. -/
def Asks (m m' : Monitor) : Prop :=
  ∀ read, m'.Waits read →
    m.Waits read ∨ m.nextStamp < read.ticket ∧ read.batch.Covers (·.key.range) ∧
      ∀ r ∈ read.batch.items, r ∈ m.registry

theorem Asks.of_eq (hticks : m'.ticks = m.ticks) : Asks m m' := by
  intro read hwaits
  unfold Waits at hwaits
  rw [hticks] at hwaits
  exact .inl hwaits

theorem Begins.asks {owner : Option Nat} {answer : Except Fault (Option Tick)}
    (h : Begins owner m answer m') : Asks m m' := by
  cases h with
  | failed => exact .of_eq rfl
  | idle => exact .of_eq rfl
  | asked connected active chosen cursor reads tick _ _ hselect hreads htick =>
    rintro read ⟨tick', htick', hread⟩
    rcases List.mem_append.1 htick' with hold | hnew
    · exact .inl ⟨tick', hold, hread⟩
    · rw [List.mem_singleton.1 hnew, htick] at hread
      have hticket := List.mem_map_of_mem (f := PendingRead.ticket) hread
      have hbatch := List.mem_map_of_mem (f := PendingRead.batch) hread
      rw [map_ticket_readsFrom, List.mem_range'_1] at hticket
      rw [map_batch_readsFrom, hreads] at hbatch
      have hchosen := Batch.mem_of_mem_select hselect (List.mem_of_mem_filter hbatch)
      exact .inr ⟨by omega, Registry.covers_of_mem_batches hchosen,
        fun r hr => Registry.mem_batches_items.1 ⟨_, hchosen, hr⟩⟩

theorem asks_move (m : Monitor) (v : Move) : Asks m (m.move v) := by
  by_cases hinner : v.inner
  · exact .of_eq (frame_of_inner hinner m).ticks
  · cases v with
    | tick => exact (m.beginTick_begins none).asks
    | wake id =>
      rcases m.move_wake_cases id with heq | ⟨-, heq⟩
      · rw [heq]
        exact .of_eq rfl
      · have hwakes := m.wakeUp_wakes id
        rw [heq]
        generalize (m.wakeUp id).1 = m', (m.wakeUp id).2 = tick at hwakes
        cases hwakes with
        | ended | slept => exact .of_eq rfl
        | entered _ _ _ _ hbegins => exact fun read hwaits => hbegins.asks read hwaits
    | strike ticket =>
      rintro read ⟨tick, htick, hread⟩
      obtain ⟨old, hold, rfl⟩ := List.mem_map.1 htick
      exact .inl ⟨old, hold, List.mem_of_mem_filter hread⟩
    | close tick =>
      rcases m.move_close_cases tick with heq | ⟨-, heq⟩
      · rw [heq]
        exact .of_eq rfl
      · obtain ⟨_, hclosed⟩ := m.closeTick_eq tick
        rw [heq, hclosed]
        rintro read ⟨other, hother, hread⟩
        exact .inl ⟨other, List.mem_of_mem_filter hother, hread⟩
    | settle | store | clock => exact .of_eq rfl
    | _ => exact absurd rfl hinner

/-- The serial number of a registration has been given out, and stands for its key. A read that
waits for its answer looks up by it who is subscribed when the answer comes. -/
structure Known (r : Registration) (m : Monitor) : Prop where
  below : r.serial < m.nextStamp
  keyed : ∀ x ∈ m.records, x.serial = r.serial → x.key = r.key

theorem Known.move (h : m.Known r) (v : Move) : (m.move v).Known r where
  below := Nat.lt_of_lt_of_le h.below (m.nextStamp_le_move v)
  keyed := by
    intro x hx hserial
    cases m.origin_move v hx with
    | kept old hold hsame hkey => exact hkey.trans (h.keyed old hold (hsame.symm.trans hserial))
    | opened s _ hnew =>
      have hbelow := h.below
      rw [← hserial, hnew] at hbelow
      exact absurd hbelow (Nat.lt_irrefl _)

theorem Known.of_runs (h : m.Known r) (hruns : m.Runs m') : m'.Known r := by
  obtain ⟨moves, -, rfl⟩ := hruns
  induction moves generalizing m with
  | nil => exact h
  | cons v rest ih => exact ih (h.move v)

/-- Records are told apart by their serial numbers, and whatever a waiting read serves lies inside
it and is known. -/
structure Recorded (m : Monitor) : Prop where
  serials : (m.records.map (·.serial)).Nodup
  below : ∀ r ∈ m.records, r.serial < m.nextStamp
  covers : ∀ read, m.Waits read → read.batch.Covers (·.key.range)
  served : ∀ read, m.Waits read → ∀ r ∈ read.batch.items, m.Known r

theorem Untouched.recorded (h : m.Untouched) : m.Recorded := by
  refine ⟨?_, ?_, ?_, ?_⟩ <;> simp [records, Waits, h.registry, h.retired, h.ticks]

namespace Recorded

theorem known (h : m.Recorded) (hr : r ∈ m.records) : m.Known r where
  below := h.below r hr
  keyed := fun x hx hserial => by rw [List.inj_on_of_nodup_map h.serials hx hr hserial]

/-- A registration and one that was removed as a whole are not of one serial number. -/
theorem apart (h : m.Recorded) (hr : r ∈ m.registry) {x : Registration} (hx : x ∈ m.retired) :
    x.serial ≠ r.serial := by
  have hserials := h.serials
  rw [records, List.map_append, List.nodup_append] at hserials
  exact fun heq => hserials.2.2 _ (List.mem_map_of_mem hr) _ (List.mem_map_of_mem hx) heq.symm

theorem serials_move (h : m.Recorded) (v : Move) : ((m.move v).records.map (·.serial)).Nodup := by
  have hserials := h.serials
  by_cases hspares : v.sparesRecords
  · obtain ⟨hregistry, hretired⟩ := records_move_of_spares hspares m
    rwa [records, hregistry, hretired]
  · cases v with
    | register key s =>
      obtain ⟨hretired, hregistry⟩ := m.register_records key s
      rw [records, List.map_append, move, hretired]
      rcases hregistry with hregistry | ⟨hregistry, -⟩
      · rwa [hregistry, ← List.map_append]
      · rw [hregistry]
        have hadded : (Registry.add m.nextStamp key s m.registry).map (·.serial) =
              m.registry.map (·.serial) ∨
            (Registry.add m.nextStamp key s m.registry).map (·.serial) =
              m.registry.map (·.serial) ++ [m.nextStamp] := Registry.map_serial_add
        rcases hadded with hsame | hopened
        · rwa [hsame, ← List.map_append]
        · have hnew : m.nextStamp ∉ m.records.map (·.serial) := by
            intro hmem
            obtain ⟨x, hx, hserial⟩ := List.mem_map.1 hmem
            exact Nat.ne_of_lt (h.below x hx) hserial
          rw [hopened, List.append_assoc, List.singleton_append,
            List.perm_middle.nodup_iff, ← List.map_append]
          exact List.nodup_cons.2 ⟨hnew, hserials⟩
    | unregister key s =>
      obtain ⟨_, heq⟩ := m.unregister_eq key s
      rw [move, heq]
      refine hserials.sublist ?_
      rw [records, records, List.map_append, List.map_append]
      exact Registry.sublist_map_serial_remove.append_right _
    | unregisterAll requester =>
      exact ((m.records_unregisterAll requester).map _).nodup_iff.2 hserials
    | _ => exact absurd rfl hspares

theorem below_move (h : m.Recorded) (v : Move) :
    ∀ x ∈ (m.move v).records, x.serial < (m.move v).nextStamp := by
  intro x hx
  cases m.origin_move v hx with
  | kept old hold hserial =>
    rw [hserial]
    exact Nat.lt_of_lt_of_le (h.below old hold) (m.nextStamp_le_move v)
  | opened s _ hnew hstamp =>
    rw [hnew]
    exact hstamp

theorem move (h : m.Recorded) (v : Move) : (m.move v).Recorded where
  serials := h.serials_move v
  below := h.below_move v
  covers := by
    intro read hwaits
    rcases m.asks_move v read hwaits with hold | ⟨-, hcovers, -⟩
    · exact h.covers read hold
    · exact hcovers
  served := by
    intro read hwaits r hr
    rcases m.asks_move v read hwaits with hold | ⟨-, -, hregistered⟩
    · exact (h.served read hold r hr).move v
    · exact (h.known (List.mem_append_left _ (hregistered r hr))).move v

theorem of_runs (h : m.Recorded) (hruns : m.Runs m') : m'.Recorded := by
  obtain ⟨moves, -, rfl⟩ := hruns
  induction moves generalizing m with
  | nil => exact h
  | cons v rest ih => exact ih (h.move v)

end Recorded

end LadderMonitor.Monitor
