import LadderMonitor.Proofs.Monitor.Delivery
import LadderMonitor.Proofs.Monitor.RoundRobin
import LadderMonitor.Proofs.Monitor.Turn

namespace LadderMonitor

/-- What is left of a tick when some of its reads have been answered. -/
def Tick.minus (t : Tick) (done : List PendingRead) : Tick :=
  { t with pending := t.pending.filter fun read => read.ticket ∉ done.map (·.ticket) }

@[simp] theorem Tick.minus_nil (t : Tick) : t.minus [] = t := by
  simp [minus]

@[simp] theorem Tick.id_minus (t : Tick) (done : List PendingRead) : (t.minus done).id = t.id := rfl

theorem Tick.without_minus (t : Tick) (done : List PendingRead) (read : PendingRead) :
    (t.minus done).without read.ticket = t.minus (done ++ [read]) := by
  simp only [without, minus, List.filter_filter, Tick.mk.injEq, true_and]
  refine List.filter_congr fun other _ => ?_
  rw [List.map_append, List.map_singleton, ← Bool.decide_and, decide_eq_decide, List.mem_append,
    List.mem_singleton, not_or, and_comm]

theorem Tick.without_eq_self {t : Tick} {ticket : Nat}
    (h : ∀ read ∈ t.pending, read.ticket ≠ ticket) : t.without ticket = t := by
  unfold without
  rw [List.filter_eq_self.2 fun read hread => by simpa using h read hread]

theorem Tick.mem_minus {t : Tick} {done : List PendingRead} {read : PendingRead} :
    read ∈ (t.minus done).pending ↔ read ∈ t.pending ∧ read.ticket ∉ done.map (·.ticket) := by
  simp [minus]

namespace Monitor

/-- The answer to a read, when each read is answered in a way of its own. -/
def answerOf (ports : Nat → Port) (read : PendingRead) : Except Fault Bytes :=
  ports read.ticket read.batch.start read.batch.size

/-- The cache after the answer to a read. -/
def cached (ports : Nat → Port) (cache : Bytes) (read : PendingRead) : Bytes :=
  match answerOf ports read with
  | .ok data => cache.overwrite read.batch.start data.toList
  | .error _ => cache

/-- The calls that the answer to a read leads to. -/
def handed (image : Int → UInt8) (ports : Nat → Port) (read : PendingRead) : List Event :=
  match answerOf ports read with
  | .ok _ => read.batch.deliveries image
  | .error _ => []

/-- A tick is the latest of those in flight, and its reads are told apart from all others. -/
structure InFlight (m : Monitor) (others : List Tick) (t : Tick) : Prop where
  ticks : m.ticks = others ++ [t]
  apart : ∀ tick ∈ others, ∀ other ∈ tick.pending, ∀ read ∈ t.pending, other.ticket ≠ read.ticket
  tickets : (t.pending.map (·.ticket)).Nodup
  registry : m.registry.Sound
  batches : ∀ read ∈ t.pending, read.batch ∈ m.batches
  distinct : (t.pending.map (·.batch)).Nodup

/-- The monitor after the answers to some reads of a tick, calls aside. -/
def partway (ports : Nat → Port) (m : Monitor) (others : List Tick) (t : Tick)
    (done : List PendingRead) : Monitor :=
  { m with ticks := others ++ [t.minus done], cache := done.foldl (cached ports) m.cache }

section Answers

variable {m : Monitor} {others : List Tick} {t : Tick} {image : Int → UInt8}
  {ports : Nat → Port} {react : Reactor}

/-- A read that has not been answered is found by its ticket. -/
theorem InFlight.find?_heldReads (h : InFlight m others t) {done : List PendingRead}
    {read : PendingRead} (hread : read ∈ t.pending) (hleft : read.ticket ∉ done.map (·.ticket))
    {m' : Monitor} (hticks : m'.ticks = others ++ [t.minus done]) :
    m'.heldReads.find? (·.2.ticket == read.ticket) = some (t.minus done, read) := by
  cases hfound : m'.heldReads.find? (·.2.ticket == read.ticket) with
  | none =>
    have hheld : (t.minus done, read) ∈ m'.heldReads :=
      mem_heldReads.2 ⟨by simp [hticks], Tick.mem_minus.2 ⟨hread, hleft⟩⟩
    simpa using List.find?_eq_none.1 hfound _ hheld
  | some found =>
    obtain ⟨tick, read'⟩ := found
    have hticket : read'.ticket = read.ticket := by simpa using List.find?_some hfound
    obtain ⟨htick, hread'⟩ := mem_heldReads.1 (List.mem_of_find?_eq_some hfound)
    rw [hticks, List.mem_append, List.mem_singleton] at htick
    rcases htick with hother | rfl
    · exact absurd hticket (h.apart tick hother read' hread' read hread)
    · obtain rfl : read' = read :=
        List.inj_on_of_nodup_map h.tickets (Tick.mem_minus.1 hread').1 hread hticket
      rfl

/-- A read that is answered is not pending any more, and all others are. -/
theorem InFlight.map_without (h : InFlight m others t) (done : List PendingRead)
    {read : PendingRead} (hread : read ∈ t.pending) :
    (others ++ [t.minus done]).map (·.without read.ticket) =
      others ++ [t.minus (done ++ [read])] := by
  have hothers : others.map (·.without read.ticket) = others := by
    refine (List.map_congr_left fun tick htick => ?_).trans (List.map_id others)
    exact Tick.without_eq_self fun other hother => h.apart tick htick other hother read hread
  rw [List.map_append, hothers, List.map_singleton, Tick.without_minus]

theorem InFlight.strike_partway (h : InFlight m others t) (done : List PendingRead)
    {read : PendingRead} (hread : read ∈ t.pending) :
    (partway ports m others t done).strike read.ticket =
      { m with
        ticks := others ++ [t.minus (done ++ [read])]
        cache := done.foldl (cached ports) m.cache } := by
  simp only [partway, strike, h.map_without done hread]

/-- Reads that succeed give the bytes of an image. -/
def Exact (image : Int → UInt8) (ports : Nat → Port) (read : PendingRead) : Prop :=
  ∀ data, answerOf ports read = .ok data →
    data = Bytes.ofImage image read.batch.start read.batch.size

/-- An answer leads to its calls, and to the cache with its bytes. -/
theorem InFlight.answer (h : InFlight m others t) (haloof : react.Aloof m.reactions)
    {done : List PendingRead} {read : PendingRead} (hread : read ∈ t.pending)
    (hexact : Exact image ports read) {m' : Monitor} {events : List Event}
    (hcalls : OnlyCalls events (partway ports m others t done) m') :
    OnlyCalls (events ++ handed image ports read) (partway ports m others t (done ++ [read]))
      (m'.answer react read (answerOf ports read)) := by
  have hstruck := hcalls.strike read.ticket
  rw [h.strike_partway done hread] at hstruck
  have hbatch := h.batches read hread
  unfold Monitor.answer handed
  cases hanswer : answerOf ports read with
  | error fault =>
    have hcache : (done ++ [read]).foldl (cached ports) m.cache =
        done.foldl (cached ports) m.cache := by
      rw [List.foldl_append, List.foldl_cons, List.foldl_nil, cached, hanswer]
    rw [partway, hcache]
    exact hstruck.trans (onlyCalls_receive_error fault read.batch)
  | ok data =>
    obtain rfl := hexact data hanswer
    have hcache : (done ++ [read]).foldl (cached ports) m.cache =
        (done.foldl (cached ports) m.cache).overwrite read.batch.start
          (Bytes.ofImage image read.batch.start read.batch.size).toList := by
      rw [List.foldl_append, List.foldl_cons, List.foldl_nil, cached, hanswer]
    have hregistry : (m'.strike read.ticket).registry = m.registry := hstruck.registry
    have hstored := hstruck.store read.batch.start
      (Bytes.ofImage image read.batch.start read.batch.size)
    rw [partway, hcache]
    refine hstored.trans (onlyCalls_receive_ok haloof hstruck.reactions ?_
      (Registry.covers_of_mem_batches hbatch) ?_)
    · rw [hregistry]
      exact h.registry
    · intro r hr
      rw [hregistry]
      exact Registry.mem_batches_items.1 ⟨read.batch, hbatch, hr⟩

/-- A tick has answers to all its reads when none of the reads in order is left. -/
theorem InFlight.pending_minus (h : InFlight m others t) {done left : List PendingRead}
    (horder : (done ++ left).Perm t.pending) : (t.minus done).pending.isEmpty ↔ left = [] := by
  have htickets : ((done ++ left).map (·.ticket)).Nodup :=
    (horder.map _).nodup_iff.2 h.tickets
  rw [List.isEmpty_iff, List.eq_nil_iff_forall_not_mem]
  constructor
  · intro hnone
    cases left with
    | nil => rfl
    | cons read rest =>
      refine absurd (Tick.mem_minus.2 ⟨horder.subset (by simp), ?_⟩) (hnone read)
      rw [List.map_append, List.nodup_append] at htickets
      exact fun hdone => htickets.2.2 _ hdone _ (by simp) rfl
  · rintro rfl read hread
    obtain ⟨hread, hleft⟩ := Tick.mem_minus.1 hread
    rw [List.append_nil] at horder
    exact hleft (List.mem_map_of_mem (horder.symm.subset hread))

/-- The answers to all reads of a tick, in any order, lead to the calls of each and to the calls of
the listeners at the end. -/
theorem InFlight.answers (h : InFlight m others t) (haloof : react.Aloof m.reactions)
    (hexact : ∀ read ∈ t.pending, Exact image ports read) {reply : Monitor → PendingRead → Monitor}
    (hreply : ∀ m' read, m'.device = m.device →
      reply m' read = m'.answerFrom react (ports read.ticket) read.ticket)
    {order : List PendingRead} (horder : order.Perm t.pending) {done left : List PendingRead}
    (hsplit : order = done ++ left) (hleft : left ≠ []) {m' : Monitor}
    (hcalls : OnlyCalls (done.flatMap (handed image ports)) (partway ports m others t done) m') :
    (left.foldl reply m').cache = order.foldl (cached ports) m.cache ∧
      (left.foldl reply m').calls =
        m.calls ++ order.flatMap (handed image ports) ++ m.listeners.map .told := by
  induction left generalizing done m' with
  | nil => exact absurd rfl hleft
  | cons read rest ih =>
    have hread : read ∈ t.pending := horder.subset (by simp [hsplit])
    have htickets : (order.map (·.ticket)).Nodup := (horder.map _).nodup_iff.2 h.tickets
    have hnew : read.ticket ∉ done.map (·.ticket) := by
      rw [hsplit, List.map_append, List.nodup_append] at htickets
      exact fun hdone => htickets.2.2 _ hdone _ (by simp) rfl
    have hsplit' : order = (done ++ [read]) ++ rest := by simp [hsplit]
    have hanswered := h.answer haloof hread (hexact read hread) hcalls
    have hevents : done.flatMap (handed image ports) ++ handed image ports read =
        (done ++ [read]).flatMap (handed image ports) := by simp
    rw [hevents] at hanswered
    have hlast := h.pending_minus (hsplit' ▸ horder)
    -- The read is still pending, and its answer ends the tick exactly if no other read is left.
    rw [List.foldl_cons, hreply m' read hcalls.device, answerFrom,
      h.find?_heldReads hread hnew hcalls.ticks]
    simp only [Tick.without_minus]
    by_cases hrest : rest = []
    · rw [if_pos (hlast.2 hrest)]
      subst hrest
      rw [List.append_nil] at hsplit'
      rw [hsplit', List.foldl_nil]
      obtain ⟨htold, hcalls'⟩ := tellAll_told haloof hanswered.reactions
      rw [hanswered.cache] at htold
      rw [hanswered.calls, hanswered.listeners] at hcalls'
      obtain ⟨poller, heq⟩ := closeTick_eq (Monitor.tellAll react
        (m'.answer react read (answerOf ports read))) (t.minus done)
      change (Monitor.closeTick (t.minus done) (Monitor.tellAll react
          (m'.answer react read (answerOf ports read)))).cache = _ ∧
        (Monitor.closeTick (t.minus done) (Monitor.tellAll react
          (m'.answer react read (answerOf ports read)))).calls = _
      rw [heq]
      exact ⟨htold, hcalls'⟩
    · rw [if_neg (by rw [hlast]; exact hrest)]
      exact ih hsplit' hrest hanswered

/-- Whether a read succeeds. -/
def Succeeds (ports : Nat → Port) (read : PendingRead) : Prop := (answerOf ports read).isOk

/-- Whether a read succeeds and an address lies in its batch. -/
def Reaches (ports : Nat → Port) (read : PendingRead) (i : Nat) : Prop :=
  Succeeds ports read ∧ read.batch.start ≤ i ∧ i < read.batch.stop

/-- A call is made exactly for the subscribers of the reads that succeed. -/
theorem mem_flatMap_handed {order : List PendingRead} (horder : order.Perm t.pending)
    {event : Event} :
    event ∈ order.flatMap (handed image ports) ↔
      ∃ read ∈ t.pending, Succeeds ports read ∧ ∃ r ∈ read.batch.items, ∃ s ∈ r.subscribers,
        event = .delivered r.key s
          (Bytes.ofImage image r.key.range.start r.key.range.size) := by
  have hhanded (read : PendingRead) : event ∈ handed image ports read ↔
      Succeeds ports read ∧ event ∈ read.batch.deliveries image := by
    unfold handed Succeeds
    split
    · rename_i heq
      simp [heq, Except.isOk, Except.toBool]
    · rename_i heq
      simp [heq, Except.isOk, Except.toBool]
  simp only [List.mem_flatMap, hhanded, Batch.deliveries, Registration.deliveries, List.mem_map,
    horder.mem_iff, eq_comm]

theorem key_of_mem_deliveries {r : Registration} {event : Event}
    (hevent : event ∈ r.deliveries image) : ∃ s data, event = .delivered r.key s data := by
  obtain ⟨s, -, rfl⟩ := List.mem_map.1 hevent
  exact ⟨s, _, rfl⟩

theorem nodup_deliveries (hsound : m.registry.Sound) {b : Batch Registration}
    (hb : b ∈ m.batches) : (b.deliveries image).Nodup := by
  have hregistered {r : Registration} (hr : r ∈ b.items) : r ∈ m.registry :=
    Registry.mem_batches_items.1 ⟨b, hb, hr⟩
  refine List.nodup_flatMap.2 ⟨fun r hr => ?_, ?_⟩
  · refine (hsound.subscribers r (hregistered hr)).2.map ?_
    intro s s' heq
    simpa using heq
  · refine (hsound.nodup_items hb).imp_of_mem ?_
    intro r r' hr hr' hne event hevent hevent'
    obtain ⟨s, data, rfl⟩ := key_of_mem_deliveries hevent
    obtain ⟨s', data', heq⟩ := key_of_mem_deliveries hevent'
    simp only [Event.delivered.injEq] at heq
    exact hne (hsound.eq_of_key (hregistered hr) (hregistered hr') heq.1)

/-- No call is made twice. -/
theorem InFlight.nodup_flatMap_handed (h : InFlight m others t) {order : List PendingRead}
    (horder : order.Perm t.pending) : (order.flatMap (handed image ports)).Nodup := by
  have hdeliveries {read : PendingRead} {event : Event}
      (hevent : event ∈ handed image ports read) : event ∈ read.batch.deliveries image := by
    unfold handed at hevent
    split at hevent
    · exact hevent
    · cases hevent
  rw [(horder.flatMap_right _).nodup_iff]
  refine List.nodup_flatMap.2 ⟨fun read hread => ?_, ?_⟩
  · unfold handed
    split
    · exact nodup_deliveries h.registry (h.batches read hread)
    · exact .nil
  · refine (List.pairwise_map.1 h.distinct).imp_of_mem ?_
    intro read read' hread hread' hne event hevent hevent'
    obtain ⟨r, hr, hdelivered⟩ := List.mem_flatMap.1 (hdeliveries hevent)
    obtain ⟨r', hr', hdelivered'⟩ := List.mem_flatMap.1 (hdeliveries hevent')
    obtain ⟨s, data, rfl⟩ := key_of_mem_deliveries hdelivered
    obtain ⟨s', data', heq⟩ := key_of_mem_deliveries hdelivered'
    simp only [Event.delivered.injEq] at heq
    have hbatch := h.batches read hread
    have hbatch' := h.batches read' hread'
    obtain rfl : r = r' := h.registry.eq_of_key
      (Registry.mem_batches_items.1 ⟨_, hbatch, hr⟩)
      (Registry.mem_batches_items.1 ⟨_, hbatch', hr'⟩) heq.1
    exact hne (h.registry.eq_of_mem_items hbatch hbatch' hr hr')

theorem size_cached (ports : Nat → Port) (cache : Bytes) (read : PendingRead) :
    (cached ports cache read).size = cache.size := by
  unfold cached
  split
  · exact Bytes.size_overwrite _ _ _
  · rfl

theorem size_foldl_cached (ports : Nat → Port) (cache : Bytes) (order : List PendingRead) :
    (order.foldl (cached ports) cache).size = cache.size := by
  induction order generalizing cache with
  | nil => rfl
  | cons read rest ih => rw [List.foldl_cons, ih, size_cached]

theorem getElem?_cached {read : PendingRead} (hexact : Exact image ports read) (cache : Bytes)
    {i : Nat} (hi : i < cache.size) :
    (Reaches ports read i → (cached ports cache read)[i]? = some (image i)) ∧
      (¬ Reaches ports read i → (cached ports cache read)[i]? = cache[i]?) := by
  unfold Reaches Succeeds cached
  cases hanswer : answerOf ports read with
  | error fault => exact ⟨fun hreaches => absurd hreaches.1 (by simp [Except.isOk, Except.toBool]),
      fun _ => rfl⟩
  | ok data =>
    obtain rfl := hexact data hanswer
    have hspan : read.batch.start + read.batch.size = read.batch.stop := by
      unfold Batch.size
      omega
    simp only [Bytes.getElem?_overwrite_ofImage cache hi, hspan]
    constructor
    · rintro ⟨-, hinside⟩
      rw [if_pos hinside]
    · intro houtside
      rw [if_neg fun hinside => houtside ⟨rfl, hinside⟩]

/-- After some answers the cache shows the image wherever one of them reaches, and what it showed
before elsewhere. -/
theorem getElem?_foldl_cached {order : List PendingRead}
    (hexact : ∀ read ∈ order, Exact image ports read) (cache : Bytes) {i : Nat}
    (hi : i < cache.size) :
    ((∃ read ∈ order, Reaches ports read i) →
      (order.foldl (cached ports) cache)[i]? = some (image i)) ∧
    ((¬ ∃ read ∈ order, Reaches ports read i) →
      (order.foldl (cached ports) cache)[i]? = cache[i]?) := by
  induction order generalizing cache with
  | nil => simp
  | cons read rest ih =>
    obtain ⟨hread, hrest⟩ := List.forall_mem_cons.1 hexact
    obtain ⟨hlater, hnever⟩ := ih hrest (cached ports cache read) (by rwa [size_cached])
    obtain ⟨hnow, hkept⟩ := getElem?_cached hread cache hi
    rw [List.foldl_cons, List.exists_mem_cons_iff, not_or]
    by_cases hreached : ∃ read ∈ rest, Reaches ports read i
    · exact ⟨fun _ => hlater hreached, fun hnone => absurd hreached hnone.2⟩
    · rw [hnever hreached]
      exact ⟨fun hsome => hnow (hsome.resolve_right hreached), fun hnone => hkept hnone.1⟩

end Answers

theorem Sound.inFlight {m m' : Monitor} (h : m.Sound) {owner : Option Nat} {t : Tick}
    (hbegins : Begins owner m (.ok (some t)) m') : InFlight m' m.ticks t := by
  have hselect := hbegins.select h.registry
  cases hbegins with
  | asked connected active chosen cursor reads _ _ _ _ _ htick =>
    have hbatches : t.batches = reads := by rw [Tick.batches, htick, map_batch_readsFrom]
    have htickets : t.pending.map (·.ticket) = List.range' (m.nextStamp + 1) reads.length := by
      rw [htick, map_ticket_readsFrom]
    refine ⟨rfl, ?_, ?_, h.registry, ?_, ?_⟩
    · intro tick htick' other hother read hread
      have hbelow := h.tickets tick htick' other hother
      have habove : read.ticket ∈ t.pending.map (·.ticket) := List.mem_map_of_mem hread
      rw [htickets, List.mem_range'_1] at habove
      omega
    · rw [htickets]
      exact List.nodup_range'
    · intro read hread
      exact Batch.mem_of_mem_select hselect (List.mem_map_of_mem hread)
    · exact Batch.nodup_select (h.registry.nodup_batches _ _) hselect

/-- A tick that begins calls nobody, and leaves the memory, the device and those to be called as
they are. -/
theorem Begins.kept {m m' : Monitor} {owner : Option Nat} {answer : Except Fault (Option Tick)}
    (h : Begins owner m answer m') :
    m'.calls = m.calls ∧ m'.cache = m.cache ∧ m'.device = m.device ∧
      m'.listeners = m.listeners ∧ m'.reactions = m.reactions := by
  cases h with
  | failed => exact ⟨rfl, rfl, rfl, rfl, rfl⟩
  | idle => exact ⟨rfl, rfl, rfl, rfl, rfl⟩
  | asked =>
    refine ⟨?_, rfl, rfl, rfl, rfl⟩
    simp only [Monitor.calls, List.filter_append, List.filter_reverse, List.filter_map,
      Function.comp_def, Event.isCall, List.filter_false, List.map_nil, List.reverse_nil,
      List.nil_append]

theorem Begins.registry_ne_nil {m m' : Monitor} {owner : Option Nat} {t : Tick}
    (h : Begins owner m (.ok (some t)) m') : m.registry ≠ [] := by
  cases h
  assumption

/-- A tick begins whenever the device is connected, monitoring is active, and something is
registered. -/
theorem exists_beginTick {m : Monitor} (hready : m.askReady.1 = .ok true) (hsome : m.registry ≠ [])
    (owner : Option Nat) : ∃ t m', m.beginTick owner = (.ok (some t), m') := by
  have hbegins := m.beginTick_begins owner
  generalize m.beginTick owner = result at hbegins
  rcases result with ⟨answer, m'⟩
  cases hbegins with
  | failed _ _ _ hfailed => exact absurd hready hfailed
  | idle _ _ hidle => exact absurd hidle (by simp [hready, hsome])
  | asked => exact ⟨_, _, rfl⟩

theorem Sound.pending_ne_nil {m m' : Monitor} (h : m.Sound)
    (hlimit : 0 < m.settings.maxBatchesPerTick) {owner : Option Nat} {t : Tick}
    (hbegins : Begins owner m (.ok (some t)) m') : t.pending ≠ [] := by
  have hlength := Batch.length_select (hbegins.select h.registry)
  have hpositive : 0 < m.batches.length :=
    List.length_pos_iff_ne_nil.2 (Batch.cluster_ne_nil hbegins.registry_ne_nil)
  rw [Tick.batches, List.length_map] at hlength
  rw [← List.length_pos_iff_ne_nil]
  omega

/-- What a tick from one state to another comes to, when its reads are answered in certain ways. -/
structure Delivers (image : Int → UInt8) (ports : Nat → Port) (m : Monitor) (t : Tick)
    (m' : Monitor) : Prop where
  /-- Each subscriber of each registration of a batch whose read succeeds is called once, with the
  bytes of its range, and nobody else; then each listener is called once. -/
  calls : ∃ handed, m'.calls = m.calls ++ handed ++ m.listeners.map .told ∧ handed.Nodup ∧
    ∀ event, event ∈ handed ↔
      ∃ read ∈ t.pending, Succeeds ports read ∧ ∃ r ∈ read.batch.items, ∃ s ∈ r.subscribers,
        event = .delivered r.key s (Bytes.ofImage image r.key.range.start r.key.range.size)
  listeners : m.listeners.Nodup
  size : m'.cache.size = m.cache.size
  inside : ∀ i < m.cache.size, (∃ read ∈ t.pending, Reaches ports read i) →
    m'.cache[i]? = some (image i)
  outside : ∀ i < m.cache.size, (¬ ∃ read ∈ t.pending, Reaches ports read i) →
    m'.cache[i]? = m.cache[i]?

/-- Whatever the order in which the reads are answered, the tick comes to the same. -/
theorem Sound.delivers {m m' : Monitor} (h : m.Sound) (hlimit : 0 < m.settings.maxBatchesPerTick)
    {react : Reactor} (haloof : react.Aloof m.reactions) {image : Int → UInt8} {ports : Nat → Port}
    {owner : Option Nat} {t : Tick} (hbegins : Begins owner m (.ok (some t)) m')
    (hexact : ∀ read ∈ t.pending, Exact image ports read) {reply : Monitor → PendingRead → Monitor}
    (hreply : ∀ m'' read, m''.device = m'.device →
      reply m'' read = m''.answerFrom react (ports read.ticket) read.ticket)
    {order : List PendingRead} (horder : order.Perm t.pending) :
    Delivers image ports m t (order.foldl reply m') := by
  have hflight := h.inFlight hbegins
  obtain ⟨hcalls, hcache, -, hlisteners, hreactions⟩ := hbegins.kept
  have hsome : order ≠ [] := by
    rw [← List.length_pos_iff_ne_nil, horder.length_eq, List.length_pos_iff_ne_nil]
    exact h.pending_ne_nil hlimit hbegins
  have hstart : OnlyCalls ([].flatMap (handed image ports)) (partway ports m' m.ticks t []) m' := by
    have hsame : partway ports m' m.ticks t [] = m' := by
      rw [partway, Tick.minus_nil, ← hflight.ticks]
      rfl
    rw [hsame]
    exact .refl m'
  obtain ⟨hshown, hend⟩ :=
    hflight.answers (hreactions ▸ haloof) hexact hreply horder (List.nil_append order).symm hsome
      hstart
  rw [hcache] at hshown
  have hcached (i : Nat) (hi : i < m.cache.size) :=
    getElem?_foldl_cached (fun read hread => hexact read (horder.subset hread)) m.cache hi
  simp only [horder.mem_iff, ← hshown] at hcached
  refine ⟨⟨_, ?_, hflight.nodup_flatMap_handed horder, fun event => mem_flatMap_handed horder⟩,
    h.listeners, ?_, fun i hi => (hcached i hi).1, fun i hi => (hcached i hi).2⟩
  · rw [hend, hcalls, hlisteners]
  · rw [hshown, size_foldl_cached]

/-- A device that neither shortens nor lengthens its answers gives the bytes of its memory. -/
theorem eq_ofImage_of_read {d : Device} (hsurplus : d.surplus = 0) {address size : Int}
    {data : Bytes} (hread : d.read address size = .ok data) :
    data = Bytes.ofImage d.memory.shown address size := by
  unfold Device.read Device.check at hread
  split at hread
  · cases hread
  · split at hread
    · cases hread
    · rename_i hinside
      simp only [Bool.or_eq_true, decide_eq_true_eq, not_or] at hinside
      obtain rfl := Except.ok.inj hread
      rw [Device.distort, hsurplus, if_neg (by omega)]
      simpa using Bytes.slice_eq_ofImage d.memory (by omega) (by omega) (by omega)

/-- A tick hands out what the device holds, once to everybody it concerns.

The tick asks for the batches that are chosen. Its reads may be answered in any order; each fails or
gives the bytes of one image of the device. Then each subscriber of each registration in a batch
whose read succeeds has been called once, with the bytes of its range, and no other subscriber has;
after that each listener has been called once. The cache shows the image wherever a read succeeded
and is unchanged elsewhere.

The cursor, the memory and the registrations may be any, and so may be the failures of subscribers
and listeners. Only that subscribers call back into polling, and that listeners reset it, is
excluded. -/
theorem Reachable.tick_delivers {m : Monitor} (h : m.Reachable)
    (hlimit : 0 < m.settings.maxBatchesPerTick) (hready : m.askReady.1 = .ok true)
    (hsome : m.registry ≠ []) {react : Reactor} (haloof : react.Aloof m.reactions)
    (image : Int → UInt8) (owner : Option Nat) :
    ∃ t m₁, m.beginTick owner = (.ok (some t), m₁) ∧
      Batch.select m.batches m.cursor m.settings.maxBatchesPerTick = .ok (t.batches, m₁.cursor) ∧
      ∀ (ports : Nat → Port) (order : List PendingRead), order.Perm t.pending →
        (∀ read ∈ t.pending, Exact image ports read) →
        Delivers image ports m t
          (order.foldl (fun m read => m.answerFrom react (ports read.ticket) read.ticket) m₁) := by
  obtain ⟨t, m₁, hbegun⟩ := exists_beginTick hready hsome owner
  have hbegins := m.beginTick_begins owner
  rw [hbegun] at hbegins
  refine ⟨t, m₁, hbegun, hbegins.select h.sound.registry, fun ports order horder hexact => ?_⟩
  exact h.sound.delivers hlimit haloof hbegins hexact (fun _ _ _ => rfl) horder

/-- A monitor of two lamps far apart on a small device, the second of which lies outside. -/
def desk : Monitor :=
  (create {} { memory := #[5, 6, 7] }).run
    [.register ⟨.named "desk", ⟨1, 2⟩⟩ (.outside "lamp"),
      .register ⟨.named "hall", ⟨900, 1⟩⟩ (.outside "lamp"), .listen (.outside "clock")]

theorem desk_tick_delivers :
    desk.Reachable ∧ desk.registry.length = 2 ∧ desk.askReady.1 = .ok true ∧
      reactor.Aloof desk.reactions ∧
      ∃ t m₁, desk.beginTick none = (.ok (some t), m₁) ∧ t.batches.length = 2 ∧
        ∀ order : List PendingRead, order.Perm t.pending →
          Delivers desk.device.memory.shown (fun _ => desk.device.read) desk t
            (order.foldl (fun m read => m.answerFrom reactor desk.device.read read.ticket) m₁) := by
  have hreachable : desk.Reachable := (Reachable.fresh (fresh_create _ _)).run _
  have hlength : desk.registry.length = 2 := by decide +kernel
  have hready : desk.askReady.1 = .ok true := by rfl
  have haloof : reactor.Aloof desk.reactions := aloof_reactor (by decide)
  have hlimit : desk.settings.maxBatchesPerTick = 4 := by decide +kernel
  have hbatches : desk.batches.length = 2 := by decide +kernel
  obtain ⟨t, m₁, hbegun, hselect, hdelivers⟩ :=
    Reachable.tick_delivers hreachable (by rw [hlimit]; decide) hready
      (by rw [← List.length_pos_iff_ne_nil, hlength]; decide) haloof desk.device.memory.shown none
  have hasked := Batch.length_select hselect
  rw [hbatches, hlimit] at hasked
  exact ⟨hreachable, hlength, hready, haloof, t, m₁, hbegun, hasked, fun order horder =>
    hdelivers (fun _ => desk.device.read) order horder
      fun read _ data hanswer => eq_ofImage_of_read rfl hanswer⟩

/-- A device that holds nothing back answers in order, so a tick is over at once. -/
theorem Reachable.tick_delivers_at_once {m : Monitor} (h : m.Reachable)
    (hlimit : 0 < m.settings.maxBatchesPerTick) (hready : m.askReady.1 = .ok true)
    (hsome : m.registry ≠ []) {react : Reactor} (haloof : react.Aloof m.reactions)
    (hsurplus : m.device.surplus = 0) (hholding : m.device.holding = false) :
    ∃ t next, Batch.select m.batches m.cursor m.settings.maxBatchesPerTick =
        .ok (t.batches, next) ∧
      Delivers m.device.memory.shown (fun _ => m.device.read) m t (m.tick react).1 := by
  obtain ⟨t, m₁, hbegun⟩ := exists_beginTick hready hsome none
  have hbegins := m.beginTick_begins none
  rw [hbegun] at hbegins
  have hdevice : m₁.device = m.device := hbegins.kept.2.2.1
  have hexact : ∀ read ∈ t.pending,
      Exact m.device.memory.shown (fun _ => m.device.read) read :=
    fun read _ data hanswer => eq_ofImage_of_read hsurplus hanswer
  have hdelivers : Delivers m.device.memory.shown (fun _ => m.device.read) m t
      (t.pending.foldl (fun m read => m.release react read.ticket) m₁) :=
    h.sound.delivers hlimit haloof hbegins hexact
      (fun m' read hsame => by rw [release, hsame, hdevice]) (List.Perm.refl _)
  have hpending : ¬ t.pending.isEmpty := by
    simpa using h.sound.pending_ne_nil hlimit hbegins
  refine ⟨t, _, hbegins.select h.sound.registry, ?_⟩
  rw [tick, hbegun]
  simp only
  rw [runTick, if_neg hpending, if_neg (by simp [hdevice, hholding])]
  exact hdelivers

end Monitor

end LadderMonitor
