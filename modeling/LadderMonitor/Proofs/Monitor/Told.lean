import LadderMonitor.Proofs.Memory.Reading
import LadderMonitor.Proofs.Monitor.Delivery
import LadderMonitor.Proofs.Monitor.Watching

namespace LadderMonitor

/-- Whether a command leaves to watch lists what they register, and to reads what they store. -/
def Command.Mild (command : Command) : Prop := command.OffWatch ∧ command ≠ .reset

namespace Monitor

variable {m m' : Monitor} {v : Move} {serial : Nat} {s : Subscriber} {x y : Registration}

/-- Whoever is registered to show values is the subscriber of an entry, for its address. -/
theorem Watched.exists_wants (h : m.Watched) (hx : x ∈ m.records) (hs : s ∈ x.subscribers)
    (hwatch : s.isWatch) :
    x ∈ m.registry ∧ s.MadeBefore m.nextStamp ∧ x.key = ⟨.watch, x.key.range⟩ ∧
      ∃ e ∈ m.watched, e.Wants x.key.range s := by
  obtain ⟨hrequester, hmade⟩ := h.aside.owned x hx s hs hwatch
  have hmem : x ∈ m.registry := by
    rcases List.mem_append.1 hx with hregistered | hretired
    · exact hregistered
    · exact absurd hrequester (h.aside.retired x hretired)
  have hkey : x.key = ⟨.watch, x.key.range⟩ := by rw [← hrequester]
  exact ⟨hmem, hmade, hkey, (h.registered _ s).1 ⟨x, hmem, hkey, hs⟩⟩

/-- A subscriber has been made, and is registered, if at all, under one serial number. -/
structure Placed (serial : Nat) (s : Subscriber) (m : Monitor) : Prop where
  made : s.MadeBefore m.nextStamp
  only : ∀ r ∈ m.records, s ∈ r.subscribers → r.serial = serial

theorem Watched.placed (h : m.Watched) (hx : x ∈ m.registry) (hs : s ∈ x.subscribers)
    (hwatch : s.isWatch) : m.Placed x.serial s := by
  obtain ⟨-, hmade, hkey, e, he, hwants⟩ := h.exists_wants (List.mem_append_left _ hx) hs hwatch
  refine ⟨hmade, fun r hr hs' => ?_⟩
  obtain ⟨hmem, -, hkey', e', he', hwants'⟩ := h.exists_wants hr hs' hwatch
  obtain rfl := h.listed.eq_of_wants he he' hwants hwants'
  obtain ⟨a, ha, -, -, hrange⟩ := hwants
  obtain ⟨a', ha', -, -, hrange'⟩ := hwants'
  obtain rfl := Option.some.inj (ha.symm.trans ha')
  rw [h.sound.registry.eq_of_key hmem hx (by rw [hkey, hkey', hrange, hrange'])]

theorem Placed.move (h : m.Placed serial s) (hv : ∀ key, v ≠ .register key s) :
    (m.move v).Placed serial s where
  made := h.made.mono (m.nextStamp_le_move v)
  only := by
    intro r hr hs
    cases m.origin_move v hr with
    | kept old hold hserial _ hsubscribers =>
      rcases hsubscribers s hs with hbefore | hnow
      · rw [hserial]
        exact h.only old hold hbefore
      · exact absurd hnow (hv _)
    | opened s' hregister hnew =>
      rw [hnew] at hs
      obtain rfl := List.mem_singleton.1 hs
      exact absurd hregister (hv _)

/-- Watch lists register none but new subscribers. -/
theorem overlooksEntries_placed : OverlooksEntries (Keeps (Placed serial s)) where
  toLasting := lasting_keeps _
  watchLists := fun _ _ h => ⟨h.made, h.only⟩
  unregister := fun m range s' h => h.move (v := .unregister ⟨.watch, range⟩ s') (by simp)
  stamp := fun m h => h.move (v := .stamp) (by simp)
  subscribeEntry := by
    intro m entry r h
    have hstamped : m.stamp.1.Placed serial s := h.move (v := .stamp) (by simp)
    refine Placed.move (v := .register (watchKey r) (.watch entry r m.nextStamp))
      ⟨hstamped.made, hstamped.only⟩ fun key heq => ?_
    have hmade := h.made
    rw [← (Move.register.inj heq).2] at hmade
    exact absurd hmade (Nat.lt_irrefl _)

/-- Watch lists are in order, a subscriber is registered in its place, and the entry that has it, if
there is one, shows what it should. -/
structure Tracks (serial : Nat) (s : Subscriber) (shown : Option Scalar → Prop) (m : Monitor) :
    Prop where
  orderly : m.Orderly (fun _ => True) Command.Mild
  placed : m.Placed serial s
  shows : ∀ e ∈ m.watched, e.update = some s → shown e.value

variable {shown shown' : Option Scalar → Prop}

theorem Tracks.mono (h : m.Tracks serial s shown) (hshown : ∀ value, shown value → shown' value) :
    m.Tracks serial s shown' :=
  ⟨h.orderly, h.placed, fun e he hs => hshown _ (h.shows e he hs)⟩

section Calls

variable (hwatch : s.isWatch)

include hwatch

theorem sheltered_tracks : Sheltered (Tracks serial s shown) where
  aside := fun h => h.orderly.watched.aside
  move := by
    intro m v h hv
    have hlists : (m.move v).watched = m.watched := by
      refine congrArg List.flatten (m.watchLists_move ?_)
      rintro _ rfl
      exact hv
    refine ⟨sheltered_orderly.move h.orderly hv, h.placed.move ?_, by rw [hlists]; exact h.shows⟩
    rintro key rfl
    rw [hv.2] at hwatch
    cases hwatch
  closeTick := by
    intro m tick h
    have horderly := sheltered_orderly.closeTick tick h.orderly
    obtain ⟨_, heq⟩ := m.closeTick_eq tick
    rw [heq] at horderly ⊢
    exact ⟨horderly, ⟨h.placed.made, h.placed.only⟩, h.shows⟩

/-- An entry that gets a subscriber gets a new one. -/
theorem Tracks.watches (h : m.Tracks serial s shown) (react : Reactor) {command : Command}
    (hwatches : command.watches) : (m.perform react command).1.Tracks serial s shown where
  orderly := h.orderly.watches react hwatches
  placed := overlooksEntries_placed.perform hwatches react m h.placed
  shows := by
    intro e he hs
    rcases (h.orderly.watched.perform react hwatches).2 e he with hold | hnew
    · exact h.shows e hold hs
    · obtain ⟨_, stamp, rfl, hstamp⟩ := hnew s hs
      exact absurd h.placed.made (Nat.not_lt.2 hstamp)

theorem keeps_tracks_perform {command : Command} (hmild : command.Mild) (react : Reactor)
    (m : Monitor) : Keeps (Tracks serial s shown) m (m.perform react command).1 := by
  refine (sheltered_tracks hwatch).perform hmild.1 m (fun list h => ?_)
    (fun hwatches h => h.watches hwatch react hwatches) fun hreset => absurd hreset hmild.2
  refine ⟨h.orderly.openList list, overlooksEntries_placed.openList m list h.placed, ?_⟩
  rw [watched_openList]
  exact h.shows

theorem keeps_tracks_within (command : Command) (hmild : command.Mild) (m : Monitor) :
    Keeps (Tracks serial s shown) m (performWithin reactionDepth command m).1 :=
  (lasting_keeps _).performWithin (keeps_tracks_perform hwatch hmild) _ m

omit hwatch in
theorem keeps_tracks_of_gives
    (h : m.Gives Command.Mild → Keeps (Tracks serial s shown) m m') :
    Keeps (Tracks serial s shown) m m' :=
  fun htracks => h htracks.orderly.gives htracks

theorem keeps_tracks_tellAll (m : Monitor) :
    Keeps (Tracks serial s shown) m (m.tellAll reactor) := by
  have htracks : Sheltered (Tracks serial s shown) := sheltered_tracks hwatch
  refine htracks.overlooksNetworks.tellAll m (fun m listener h => ?_) ?_
  · exact htracks.move (v := .note (.told listener)) h trivial
  · exact htracks.overlooksNetworks.tell_reactorOf Command.Mild (fun _ _ => keeps_tracks_of_gives)
      (keeps_tracks_within hwatch)

omit hwatch in
/-- A value is shown by the entry that it is for. -/
theorem Tracks.valued (h : m.Tracks serial s shown) {entry : Nat} {value : Option Scalar}
    (hright : ∀ e ∈ m.watched, e.update = some s → e.serial = entry → shown' value)
    (hothers : ∀ e ∈ m.watched, e.update = some s → e.serial ≠ entry → shown' e.value) :
    (m.modifyEntry entry fun e => { e with value }).Tracks serial s shown' where
  orderly := h.orderly.valued (fun _ _ _ => trivial) entry value
  placed := ⟨h.placed.made, h.placed.only⟩
  shows := by
    intro e he hs
    rw [watched_modifyEntry] at he
    obtain ⟨old, hold, rfl⟩ := List.mem_map.1 he
    by_cases hserial : old.serial = entry
    · rw [if_pos hserial] at hs ⊢
      exact hright old hold hs hserial
    · rw [if_neg hserial] at hs ⊢
      exact hothers old hold hs hserial

/-- Whoever is told is told nothing that the entry should not show. -/
theorem Tracks.notify (h : m.Tracks serial s shown) (key : RegistrationKey) (data : Bytes)
    {s' : Subscriber} (hright : ∀ entry r stamp, s' = .watch entry r stamp →
      ∀ e ∈ m.watched, e.update = some s → e.serial = entry →
        shown (Codec.decode r data).toOption) :
    (m.notify reactor key data s').Tracks serial s shown := by
  have htracks : Sheltered (Tracks serial s shown) := sheltered_tracks hwatch
  have hnoted := htracks.move (v := .note (.delivered key s' data)) h trivial
  refine htracks.overlooksNetworks.reportIf (m := m) (fun _ => ?_) (.subscriberFailed key) h
  cases s' with
  | outside name =>
    exact (lasting_keeps _).reactOutside Command.Mild (fun _ _ => keeps_tracks_of_gives)
      (keeps_tracks_within hwatch) name _ hnoted
  | display requester stamp => exact htracks.overlooksNetworks.markDue _ requester hnoted
  | watch entry r stamp =>
    have hvalue := hright entry r stamp rfl
    change Tracks serial s shown (Monitor.showValue entry r data _).1
    unfold Monitor.showValue
    split
    · rename_i value hdecoded
      rw [hdecoded] at hvalue
      exact hnoted.valued hvalue fun e he hs _ => h.shows e he hs
    · rename_i fault hdecoded
      rw [hdecoded] at hvalue
      split
      · exact hnoted.valued hvalue fun e he hs _ => h.shows e he hs
      · exact hnoted

end Calls

section Told

variable {entry stamp : Nat} {r : ResolvedAddress} {e : WatchEntry}

/-- Whose subscriber it is, and that its address is one that a name has resolved to. -/
theorem Tracks.entry_of_update (h : m.Tracks serial (.watch entry r stamp) shown)
    (he : e ∈ m.watched) (hs : e.update = some (.watch entry r stamp)) :
    e.serial = entry ∧ e.resolved = some r ∧ r.Narrow := by
  obtain ⟨r', stamp', hresolved, heq, hnarrow⟩ := h.orderly.watched.listed.own e he _ hs
  obtain ⟨rfl, rfl, -⟩ := Subscriber.watch.inj heq
  exact ⟨rfl, hresolved, hnarrow⟩

/-- A subscriber is told of the range of its address. -/
theorem Tracks.range_of_subscriber (h : m.Tracks serial (.watch entry r stamp) shown)
    (hknown : m.Known y) (hs : .watch entry r stamp ∈ m.subscribersOf y.serial) :
    y.key.range = ⟨r.address, r.size⟩ ∧ 0 < r.size := by
  obtain ⟨x, hx, hserial, hsub⟩ := exists_record_of_subscribersOf hs
  obtain ⟨hmem, -, -, e, he, a, hresolved, hupdate, -, hrange⟩ :=
    h.orderly.watched.exists_wants hx hsub rfl
  obtain rfl := Option.some.inj ((h.entry_of_update he hupdate).2.1.symm.trans hresolved)
  have hsize := (h.orderly.watched.sound.registry.ranges x hmem).2
  rw [← hknown.keyed x hx hserial]
  rw [hrange] at hsize ⊢
  exact ⟨rfl, hsize⟩

/-- When an entry has a subscriber, it is registered in its place. -/
theorem Tracks.subscribed (h : m.Tracks serial (.watch entry r stamp) shown)
    (hstart : 0 ≤ r.address) (he : e ∈ m.watched) (hs : e.update = some (.watch entry r stamp)) :
    .watch entry r stamp ∈ m.subscribersOf serial := by
  obtain ⟨-, hresolved, -⟩ := h.entry_of_update he hs
  obtain ⟨x, hx, -, hsub⟩ := (h.orderly.watched.registered ⟨r.address, r.size⟩ _).2
    ⟨e, he, r, hresolved, hs, hstart, rfl⟩
  rw [← h.placed.only x (List.mem_append_left _ hx) hsub,
    subscribersOf_eq h.orderly.watched.sound.registry hx]
  exact hsub

/-- Another subscriber of the same entry is told only when the entry has that one. -/
theorem Tracks.none_of_other (h : m.Tracks serial (.watch entry r stamp) shown)
    {r' : ResolvedAddress} {stamp' : Nat}
    (hs : .watch entry r' stamp' ∈ m.subscribersOf y.serial)
    (hother : Subscriber.watch entry r' stamp' ≠ .watch entry r stamp) :
    m.Tracks serial (.watch entry r stamp) fun _ => False := by
  obtain ⟨x, hx, -, hsub⟩ := exists_record_of_subscribersOf hs
  obtain ⟨-, -, -, e', he', a, -, hupdate', -⟩ := h.orderly.watched.exists_wants hx hsub rfl
  refine ⟨h.orderly, h.placed, fun e he hupdate => hother ?_⟩
  obtain ⟨_, _, -, hown, -⟩ := h.orderly.watched.listed.own e' he' _ hupdate'
  have hserial : e.serial = e'.serial :=
    (h.entry_of_update he hupdate).1.trans (Subscriber.watch.inj hown).1
  rw [h.orderly.watched.listed.eq_of_serial he he' hserial, hupdate'] at hupdate
  exact Option.some.inj hupdate

/-- An entry shows the value that it is told. -/
theorem Tracks.notify_self (h : m.Tracks serial (.watch entry r stamp) shown)
    (key : RegistrationKey) {data : Bytes} (hsize : 0 < r.size) (hdata : r.size ≤ data.size) :
    (m.notify reactor key data (.watch entry r stamp)).Tracks serial (.watch entry r stamp)
      (· = (Codec.decode r data).toOption) := by
  have hnoted := (sheltered_tracks rfl).move
    (v := .note (.delivered key (.watch entry r stamp) data)) h trivial
  have htold : Tracks serial (.watch entry r stamp) (· = (Codec.decode r data).toOption)
      (Monitor.showValue entry r data (m.note (.delivered key (.watch entry r stamp) data))).1 := by
    have hothers : ∀ e ∈ m.watched, e.update = some (.watch entry r stamp) → e.serial ≠ entry →
        e.value = (Codec.decode r data).toOption :=
      fun e he hs hne => absurd (h.entry_of_update he hs).1 hne
    unfold Monitor.showValue
    obtain ⟨value, hvalue⟩ | ⟨fault, hfault, -, hreported⟩ :=
      Codec.decode_of_size hsize hdata
    · rw [hvalue] at hothers ⊢
      exact hnoted.valued (fun _ _ _ _ => rfl) hothers
    · rw [hfault] at hothers ⊢
      simp only
      split
      · exact hnoted.valued (fun _ _ _ _ => rfl) hothers
      · -- Whoever has the subscriber has an address whose refusals are reported.
        rename_i hunreported
        refine ⟨hnoted.orderly, hnoted.placed, fun e he hs => ?_⟩
        exact absurd (hreported (h.entry_of_update he hs).2.2.brief) hunreported
  exact (sheltered_tracks rfl).overlooksNetworks.reportIf id _ htold

/-- Those who are told of one thing in a row leave an entry as it is, or as it is told. -/
theorem Tracks.foldl_notify (h : m.Tracks serial (.watch entry r stamp) shown)
    (key : RegistrationKey) {data : Bytes} {told : List Subscriber}
    (halone : ∀ r' stamp', .watch entry r' stamp' ∈ told →
      Subscriber.watch entry r' stamp' = .watch entry r stamp)
    (hserved : .watch entry r stamp ∈ told → 0 < r.size ∧ r.size ≤ data.size) :
    (told.foldl (Monitor.notify reactor key data) m).Tracks serial (.watch entry r stamp)
      fun value => if .watch entry r stamp ∈ told then value = (Codec.decode r data).toOption
        else shown value := by
  induction told generalizing m shown with
  | nil => simpa using h
  | cons s' rest ih =>
    have halone' : ∀ r' stamp', .watch entry r' stamp' ∈ rest →
        Subscriber.watch entry r' stamp' = .watch entry r stamp :=
      fun r' stamp' hmem => halone r' stamp' (List.mem_cons_of_mem _ hmem)
    have hserved' (hmem : .watch entry r stamp ∈ rest) := hserved (List.mem_cons_of_mem _ hmem)
    by_cases hself : s' = .watch entry r stamp
    · subst hself
      obtain ⟨hsize, hdata⟩ := hserved List.mem_cons_self
      refine (ih (h.notify_self key hsize hdata) halone' hserved').mono fun value hvalue => ?_
      rw [if_pos List.mem_cons_self]
      split at hvalue <;> exact hvalue
    · have hnotified := h.notify rfl key data fun entry' r' stamp' heq e he hs hserial => by
        rw [← hserial, (h.entry_of_update he hs).1] at heq
        exact absurd (heq.trans (halone r' stamp' (heq ▸ List.mem_cons_self))) hself
      refine (ih hnotified halone' hserved').mono fun value hvalue => ?_
      have hmem : .watch entry r stamp ∈ s' :: rest ↔ .watch entry r stamp ∈ rest := by
        rw [List.mem_cons, or_iff_right (Ne.symm hself)]
      simpa only [hmem] using hvalue

/-- When a registration is handed bytes, the entry shows their value if they are for it. -/
theorem Tracks.notifyAll (h : m.Tracks serial (.watch entry r stamp) shown) (y : Registration)
    {data : Bytes} (hserved : .watch entry r stamp ∈ m.subscribersOf y.serial →
      0 < r.size ∧ r.size ≤ data.size) :
    (m.notifyAll reactor y data).Tracks serial (.watch entry r stamp) fun value =>
      if .watch entry r stamp ∈ m.subscribersOf y.serial
        then value = (Codec.decode r data).toOption else shown value := by
  by_cases halone : ∀ r' stamp', .watch entry r' stamp' ∈ m.subscribersOf y.serial →
      Subscriber.watch entry r' stamp' = .watch entry r stamp
  · exact h.foldl_notify y.key halone hserved
  · -- The entry has another subscriber, and will never have this one again.
    push Not at halone
    obtain ⟨r', stamp', hmem, hother⟩ := halone
    have hnone := h.none_of_other hmem hother
    have hkept : Keeps (Tracks serial (.watch entry r stamp) fun _ => False) m
        (m.notifyAll reactor y data) :=
      (lasting_keeps _).foldl (fun m s' h => h.notify rfl y.key data
        fun _ _ _ _ e he hs _ => h.shows e he hs) _ m
    exact (hkept hnone).mono fun _ => False.elim

/-- The value of an address in the memory of a device, if the bytes there have one. -/
def valueOf (image : Int → UInt8) (r : ResolvedAddress) : Option Scalar :=
  (Codec.decode r (.ofImage image r.address r.size)).toOption

section Serve

variable (image : Int → UInt8) {b : Batch Registration}

/-- A registration that is served by a read tells an entry the value of its address, if it tells it
anything. -/
theorem Tracks.serve (h : m.Tracks serial (.watch entry r stamp) shown) (hknown : m.Known y)
    (hcovers : b.Covers (·.key.range)) (hy : y ∈ b.items) :
    (m.serve reactor b.start (.ofImage image b.start b.size) y).Tracks serial
      (.watch entry r stamp) fun value =>
        if .watch entry r stamp ∈ m.subscribersOf y.serial then value = valueOf image r
        else shown value := by
  obtain ⟨hstart, hstop⟩ := hcovers.inside y hy
  have hinside : y.key.range.start + y.key.range.size ≤ b.start + b.size := by
    unfold ByteRange.stop at hstop
    unfold Batch.size
    omega
  have hslice (hmem : .watch entry r stamp ∈ m.subscribersOf y.serial) :
      (Bytes.ofImage image b.start b.size).slice (y.key.range.start - b.start)
        (y.key.range.start - b.start + y.key.range.size) = .ofImage image r.address r.size := by
    obtain ⟨hrange, hsize⟩ := h.range_of_subscriber hknown hmem
    rw [hrange] at hstart hinside ⊢
    exact Bytes.slice_ofImage hstart (Int.le_of_lt hsize) hinside
  unfold Monitor.serve
  simp only [Registration.range_eq]
  rw [if_neg (by rw [Bytes.size_ofImage]; omega)]
  refine (h.notifyAll y fun hmem => ?_).mono fun value hvalue => ?_
  · obtain ⟨-, hsize⟩ := h.range_of_subscriber hknown hmem
    rw [hslice hmem, Bytes.size_ofImage]
    omega
  · by_cases hmem : .watch entry r stamp ∈ m.subscribersOf y.serial
    · rw [if_pos hmem, hslice hmem] at hvalue
      rwa [if_pos hmem]
    · rw [if_neg hmem] at hvalue
      rwa [if_neg hmem]

/-- The registration that an entry has tells it the value of its address. -/
theorem Tracks.serve_own (h : m.Tracks serial (.watch entry r stamp) shown) (hknown : m.Known y)
    (hcovers : b.Covers (·.key.range)) (hy : y ∈ b.items) (hserial : y.serial = serial)
    (hstart : 0 ≤ r.address) :
    (m.serve reactor b.start (.ofImage image b.start b.size) y).Tracks serial
      (.watch entry r stamp) (· = valueOf image r) := by
  by_cases hmem : .watch entry r stamp ∈ m.subscribersOf y.serial
  · have hserved := h.serve image hknown hcovers hy
    simpa only [if_pos hmem] using hserved
  · have hnone : m.Tracks serial (.watch entry r stamp) fun _ => False := by
      refine ⟨h.orderly, h.placed, fun e he hs => hmem ?_⟩
      rw [hserial]
      exact h.subscribed hstart he hs
    have hserved := hnone.serve image hknown hcovers hy
    simp only [if_neg hmem] at hserved
    exact hserved.mono fun _ => False.elim

/-- Whatever a read serves, an entry goes on to show what it should. -/
theorem Tracks.foldl_serve (h : m.Tracks serial (.watch entry r stamp) shown)
    (hshown : shown (valueOf image r)) (hcovers : b.Covers (·.key.range))
    (hknown : ∀ y ∈ b.items, m.Known y) {items : List Registration}
    (hitems : ∀ y ∈ items, y ∈ b.items) :
    (items.foldl (Monitor.serve reactor b.start (.ofImage image b.start b.size)) m).Tracks serial
        (.watch entry r stamp) shown ∧
      ∀ y ∈ b.items, (items.foldl
        (Monitor.serve reactor b.start (.ofImage image b.start b.size)) m).Known y := by
  have hkept := lasting_keeps fun m => m.Tracks serial (.watch entry r stamp) shown ∧
    ∀ y ∈ b.items, m.Known y
  refine hkept.foldl_of_mem (fun y hy m hm => ?_) m ⟨h, hknown⟩
  obtain ⟨htracks, hknown⟩ := hm
  refine ⟨(htracks.serve image (hknown y (hitems y hy)) hcovers (hitems y hy)).mono
    fun value hvalue => ?_, fun other hother => ?_⟩
  · split at hvalue
    · rw [hvalue]
      exact hshown
    · exact hvalue
  · exact (hknown other hother).of_runs (inner_reactor.serve _ _ m y).runs

/-- A read that serves the registration of an entry makes it show the value of its address. -/
theorem Tracks.foldl_serve_own (h : m.Tracks serial (.watch entry r stamp) fun _ => True)
    (hcovers : b.Covers (·.key.range)) (hknown : ∀ y ∈ b.items, m.Known y) (hx : x ∈ b.items)
    (hserial : x.serial = serial) (hstart : 0 ≤ r.address) :
    (b.items.foldl (Monitor.serve reactor b.start (.ofImage image b.start b.size)) m).Tracks serial
      (.watch entry r stamp) (· = valueOf image r) := by
  obtain ⟨before, after, hsplit⟩ := List.append_of_mem hx
  have hbefore : ∀ y ∈ before, y ∈ b.items := by simp +contextual [hsplit]
  have hafter : ∀ y ∈ after, y ∈ b.items := by simp +contextual [hsplit]
  rw [congrArg (List.foldl _ _) hsplit, List.foldl_append, List.foldl_cons]
  obtain ⟨hfirst, hknown₁⟩ := h.foldl_serve image trivial hcovers hknown hbefore
  have hown := hfirst.serve_own image (hknown₁ x hx) hcovers hx hserial hstart
  exact (hown.foldl_serve image rfl hcovers (fun y hy =>
    (hknown₁ y hy).of_runs (inner_reactor.serve _ _ _ x).runs) hafter).1

end Serve

end Told

end Monitor

end LadderMonitor
