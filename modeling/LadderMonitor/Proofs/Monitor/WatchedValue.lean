import LadderMonitor.Proofs.Ladder.Activity
import LadderMonitor.Proofs.Monitor.Cache
import LadderMonitor.Proofs.Monitor.Refresh
import LadderMonitor.Proofs.Monitor.Told

namespace LadderMonitor

namespace Monitor

variable {m : Monitor} {v : Move} {serial : Nat} {x : Registration} {shown : Option Scalar → Prop}

/-- Whether a turn, if it is an answer with bytes, brings those of an image, and if it is a call,
leaves the memory alone. -/
def Turn.Faithful (image : Int → UInt8) (m : Monitor) : Turn → Prop
  | command c => c.Mild
  | reply ticket (.ok data) => ∀ read ∈ m.handled? (.reply ticket (.ok data)),
    data = .ofImage image read.batch.start read.batch.size
  | _ => True

/-- Whether turns in order bring the bytes of an image alone. -/
def Faithful (image : Int → UInt8) (m : Monitor) : List Turn → Prop
  | [] => True
  | v :: rest => v.Faithful image m ∧ Faithful image (m.turn reactor v) rest

/-- The read that a turn answers with bytes, if it does. -/
def brought? (m : Monitor) : Turn → Option PendingRead
  | .reply ticket (.ok data) => m.handled? (.reply ticket (.ok data))
  | _ => none

/-- The reads that turns in order answer with bytes. -/
def brought (m : Monitor) : List Turn → List PendingRead
  | [] => []
  | v :: rest => (m.brought? v).toList ++ brought (m.turn reactor v) rest

/-- An entry and the cache show the bytes of an image at an address. -/
structure Agrees (image : Int → UInt8) (serial entry : Nat) (r : ResolvedAddress) (stamp : Nat)
    (m : Monitor) : Prop where
  tracks : m.Tracks serial (.watch entry r stamp) (· = valueOf image r)
  cache : ∀ i : Nat, r.address ≤ i → i < r.address + r.size → m.cache[i]? = some (image i)

section Image

variable {entry stamp : Nat} {r : ResolvedAddress} {image : Int → UInt8} {read : PendingRead}

theorem Tracks.turn (h : m.Tracks serial (.watch entry r stamp) shown) (hrecorded : m.Recorded)
    (hshown : shown (valueOf image r)) {v : Turn} (hfaithful : v.Faithful image m) :
    (m.turn reactor v).Tracks serial (.watch entry r stamp) shown := by
  have htracks : Sheltered (Tracks serial (.watch entry r stamp) shown) := sheltered_tracks rfl
  by_cases hcall : v.isCall = true
  · cases v with
    | command command => exact keeps_tracks_perform rfl hfaithful reactor m h
    | _ => cases hcall
  · refine htracks.overlooksLoop.turn_of (lasting_keeps _) (by simpa using hcall)
      (keeps_tracks_tellAll rfl m) ?_ htracks.overlooksNetworks.reported h
    rintro ticket data read rfl hhandled hstored
    obtain rfl := hfaithful read hhandled
    have hwaits := waits_of_handled? hhandled
    rw [turn_reply_ok hhandled]
    exact (hstored.foldl_serve image hshown (hrecorded.covers read hwaits) (fun y hy =>
      ((hrecorded.served read hwaits y hy).move (.strike read.ticket)).move (.store _ _))
      fun _ => id).1

theorem byte_of_written {i : Nat} {v : Turn} (hfaithful : v.Faithful image m) {w : Write}
    (hw : m.written i v = some w) : w.byte = image i := by
  cases v with
  | command command =>
    cases command with
    | reset => exact absurd rfl hfaithful.2
    | _ => cases hw
  | reply ticket answer =>
    cases answer with
    | error fault => cases hw
    | ok data =>
      rw [written] at hw
      split at hw
      · rename_i read hhandled
        obtain rfl := hfaithful read hhandled
        split at hw
        · rename_i hinside
          rw [Bytes.size_ofImage] at hinside
          rw [Bytes.getElem?_ofImage (by omega), Option.map_some] at hw
          rw [← Option.some.inj hw]
          exact congrArg image (by omega)
        · cases hw
      · cases hw
  | _ => cases hw

theorem Agrees.turn (h : m.Agrees image serial entry r stamp) (hrecorded : m.Recorded) {v : Turn}
    (hfaithful : v.Faithful image m) :
    (m.turn reactor v).Agrees image serial entry r stamp where
  tracks := h.tracks.turn hrecorded rfl hfaithful
  cache := by
    intro i hstart hstop
    obtain hput | ⟨-, hresets⟩ := cache_turn v (h.cache i hstart hstop)
    · rw [hput]
      cases hw : m.written i v with
      | none => rfl
      | some w => exact congrArg some (byte_of_written hfaithful hw)
    · exact absurd (fun entry hentry command hmem =>
        (h.tracks.orderly.gives entry hentry command hmem).2) hresets

theorem Agrees.turns (h : m.Agrees image serial entry r stamp) (hrecorded : m.Recorded)
    {list : List Turn} (hfaithful : m.Faithful image list) :
    (m.turns reactor list).Agrees image serial entry r stamp := by
  induction list generalizing m with
  | nil => exact h
  | cons v rest ih =>
    exact ih (h.turn hrecorded hfaithful.1) (hrecorded.of_runs (inner_reactor.runs_turn m v))
      hfaithful.2

/-- An answer with bytes for the registration of an entry makes the entry agree with the cache. -/
theorem Tracks.agrees_turn (h : m.Tracks serial (.watch entry r stamp) fun _ => True)
    (hrecorded : m.Recorded) {v : Turn} (hbrought : m.brought? v = some read)
    (hfaithful : v.Faithful image m) (hx : x ∈ read.batch.items) (hserial : x.serial = serial)
    (hrange : x.key.range = ⟨r.address, r.size⟩) (hstart : 0 ≤ r.address)
    (hinside : r.address + r.size ≤ m.cache.size) :
    (m.turn reactor v).Agrees image serial entry r stamp := by
  obtain ⟨ticket, data, rfl⟩ : ∃ ticket data, v = .reply ticket (.ok data) := by
    unfold brought? at hbrought
    split at hbrought
    · exact ⟨_, _, rfl⟩
    · cases hbrought
  have hhandled : m.handled? (.reply ticket (.ok data)) = some read := hbrought
  have hwaits := waits_of_handled? hhandled
  have hcovers := hrecorded.covers read hwaits
  constructor
  · have htracks : Sheltered (Tracks serial (.watch entry r stamp) fun _ => True) :=
      sheltered_tracks rfl
    have hstruck := htracks.move (v := .strike read.ticket) h trivial
    have hstored := htracks.move (v := .store read.batch.start data) hstruck trivial
    rw [turn_reply_ok hhandled]
    obtain rfl := hfaithful read hhandled
    exact hstored.foldl_serve_own image hcovers (fun y hy =>
      ((hrecorded.served read hwaits y hy).move (.strike read.ticket)).move (.store _ _))
      hx hserial hstart
  · intro i hfirst hlast
    obtain ⟨hbefore, hafter⟩ := hcovers.inside x hx
    rw [hrange] at hbefore hafter
    change read.batch.start ≤ r.address at hbefore
    change r.address + r.size ≤ read.batch.stop at hafter
    have hsize : read.batch.size = read.batch.stop - read.batch.start := rfl
    obtain ⟨w, hw⟩ : ∃ w, m.written i (.reply ticket (.ok data)) = some w := by
      obtain rfl := hfaithful read hhandled
      rw [written, hhandled]
      simp only
      rw [if_pos (by rw [Bytes.size_ofImage]; omega), Bytes.getElem?_ofImage (by omega)]
      exact ⟨_, rfl⟩
    obtain ⟨b, hb⟩ : ∃ b, m.cache[i]? = some b :=
      ⟨_, Array.getElem?_eq_getElem (by omega)⟩
    obtain hput | ⟨-, hresets⟩ := cache_turn (.reply ticket (.ok data)) hb
    · rw [hput, hw]
      exact congrArg some (byte_of_written hfaithful hw)
    · exact absurd (fun entry hentry command hmem =>
        (h.orderly.gives entry hentry command hmem).2) hresets

/-- From the first answer with bytes for its registration on, an entry agrees with the cache. -/
theorem Tracks.agrees_turns (h : m.Tracks serial (.watch entry r stamp) fun _ => True)
    (hrecorded : m.Recorded) {list : List Turn} (hfaithful : m.Faithful image list)
    (hread : read ∈ m.brought list) (hx : x ∈ read.batch.items) (hserial : x.serial = serial)
    (hrange : x.key.range = ⟨r.address, r.size⟩) (hstart : 0 ≤ r.address)
    (hinside : r.address + r.size ≤ m.cache.size) :
    (m.turns reactor list).Agrees image serial entry r stamp := by
  induction list generalizing m with
  | nil => cases hread
  | cons v rest ih =>
    have hruns := inner_reactor.runs_turn m v
    rcases List.mem_append.1 hread with hnow | hlater
    · refine Agrees.turns ?_ (hrecorded.of_runs hruns) hfaithful.2
      exact h.agrees_turn hrecorded (Option.mem_toList.1 hnow) hfaithful.1 hx hserial hrange hstart
        hinside
    · refine ih (h.turn hrecorded trivial hfaithful.1) (hrecorded.of_runs hruns) hfaithful.2 hlater
        ?_
      rwa [hruns.size_cache]

/-- What agrees with the cache is what reading the cache gives. -/
theorem Agrees.shows (h : m.Agrees image serial entry r stamp) (hstart : 0 ≤ r.address)
    (hsize : 0 ≤ r.size) (hinside : r.address + r.size ≤ m.cache.size) {e : WatchEntry}
    (he : e ∈ m.watched) (hs : e.update = some (.watch entry r stamp)) :
    e.value = (Codec.read m.cache r).toOption := by
  rw [Codec.read, Bytes.window_of_inside hstart hinside,
    Bytes.slice_eq_of_shows m.cache hstart hsize hinside h.cache]
  exact h.tracks.shows e he hs

end Image

theorem Watching.recorded (h : m.Watching) : m.Recorded := by
  induction h with
  | opened huntouched => exact huntouched.recorded
  | turn _ v _ ih => exact ih.of_runs (inner_reactor.runs_turn _ v)
  | move _ v _ ih => exact ih.move v

theorem Watching.turns (h : m.Watching) {image : Int → UInt8} {list : List Turn}
    (hfaithful : m.Faithful image list) : (m.turns reactor list).Watching := by
  induction list generalizing m with
  | nil => exact h
  | cons v rest ih =>
    refine ih (h.turn v ?_) hfaithful.2
    cases v with
    | command command => exact hfaithful.1.1
    | _ => trivial

/-- Watch entries show what evaluations of networks see.

Let a tick begin, and let anything happen from then on: its reads are answered in whatever order,
or fail, other ticks begin and end, and commands are given from outside and from inside subscribers
and listeners, only that nobody resets, and that every answer with bytes brings those of one image.
Then, as soon as a read of the tick has been answered with bytes, each entry whose subscriber is in
one of its registrations, and has not been given up since, shows the value that is read at its
address from the cache, and none if that value cannot be accessed. A block whose symbol lies at this
address has the truth of that value as its level. -/
theorem Watching.value_eq_read (h : m.Watching) (hgives : m.Gives fun command => command ≠ .reset)
    {t : Tick} (hbegun : m.begun? v = some t) {image : Int → UInt8} {list : List Turn}
    (hfaithful : (m.move v).Faithful image list) {read : PendingRead} (hread : read ∈ t.pending)
    (hbrought : read ∈ (m.move v).brought list) {x : Registration} (hx : x ∈ read.batch.items)
    {e : WatchEntry} (he : e ∈ ((m.move v).turns reactor list).watched) {s : Subscriber}
    (hs : s ∈ x.subscribers) (hupdate : e.update = some s) {r : ResolvedAddress}
    (hresolved : e.resolved = some r)
    (hinside : r.address + r.size ≤ ((m.move v).turns reactor list).cache.size) :
    e.value = (Codec.read ((m.move v).turns reactor list).cache r).toOption ∧
      (e.value = none ↔ ∃ fault : Fault, fault.Reported ∧
        Codec.read ((m.move v).turns reactor list).cache r = .error fault) ∧
      ∀ (p : Project) (b : Block), b.resolution p = .ok (some r) →
        (b.level p ((m.move v).turns reactor list).cache).2 =
          .ok (e.value.elim false Scalar.truth) := by
  have hbegan : (m.move v).Watching := by
    refine h.move v ?_
    cases v with
    | tick | wake => trivial
    | _ => cases hbegun
  have hflight := h.orderly.watched.sound.inFlight_of_begun? hbegun
  have hbatch := hflight.batches read hread
  have hgiven : (m.move v).Gives fun command => command ≠ .reset :=
    hgives.of_eq (m.spared_move v).reactions
  generalize m.move v = m₁ at *
  obtain ⟨_, stamp, hown, rfl, hnarrow⟩ :=
    (hbegan.turns hfaithful).orderly.watched.listed.own e he s hupdate
  obtain rfl := Option.some.inj (hresolved.symm.trans hown)
  have hregistered : x ∈ m₁.registry := Registry.mem_batches_items.1 ⟨read.batch, hbatch, hx⟩
  have hmild : m₁.Gives Command.Mild := fun entry hentry command hmem =>
    ⟨hbegan.orderly.gives entry hentry command hmem, hgiven entry hentry command hmem⟩
  have htracks : m₁.Tracks x.serial (.watch e.serial r stamp) fun _ => True :=
    ⟨⟨hbegan.orderly.watched, fun _ _ => trivial, hmild⟩,
      hbegan.orderly.watched.placed hregistered hs rfl, fun _ _ _ => trivial⟩
  have hsubscribed : .watch e.serial r stamp ∈ m₁.subscribersOf x.serial := by
    rw [subscribersOf_eq hflight.registry hregistered]
    exact hs
  obtain ⟨hrange, hsize⟩ := htracks.range_of_subscriber
    (hbegan.recorded.known (List.mem_append_left _ hregistered)) hsubscribed
  have hstart := (hflight.registry.ranges x hregistered).1
  rw [hrange] at hstart
  have hagrees := htracks.agrees_turns hbegan.recorded hfaithful hbrought hx rfl hrange hstart (by
    rwa [(inner_reactor.runs_turns m₁ list).size_cache] at hinside)
  generalize m₁.turns reactor list = ended at *
  have hvalue := hagrees.shows hstart (Int.le_of_lt hsize) hinside he hupdate
  refine ⟨hvalue, ?_, fun p b hb => ?_⟩
  · rw [hvalue]
    obtain ⟨value, hread⟩ | ⟨fault, hread, -, hreported⟩ :=
        Codec.read_of_inside hsize hstart hinside
    · simp [hread, Except.toOption]
    · simp [hread, hreported hnarrow.brief, Except.toOption]
  · rw [hvalue]
    exact Block.level_of_inside hb hsize hnarrow.brief hstart hinside

/-- A monitor of a boiler: its list has the pressure, and the flame far from it. -/
def boiler : Monitor :=
  (createDisplay { gapThreshold := 1, cacheSize := 64 } {}
    { project := { Project.empty with
        symbols := [⟨"pressure", .system, .real, .int 2, .int 0, ""⟩,
          ⟨"flame", .system, .bit, .int 40, .int 3, ""⟩] } }).turns reactor
    [.command (.watch 0 "pressure"), .command (.watch 0 "flame")]

/-- What the memory of the boiler shows: a pressure of one and a half. -/
def steam (address : Int) : UInt8 :=
  if address = 4 then 0xc0 else if address = 5 then 0x3f else 0

/-- The flame cannot be read, and another list gets the pressure before its bytes come. -/
def boilerTurns : List Turn :=
  [.reply 8 (.error (.readFailure 40)), .command (.watch 1 "pressure"),
    .reply 7 (.ok #[0, 0, 0xc0, 0x3f]), .conclude ⟨6, none, []⟩]

theorem boiler_value_eq_read :
    ((boiler.move .tick).turns reactor boilerTurns).ticks = [] ∧
      ∀ e ∈ ((boiler.move .tick).turns reactor boilerTurns).watched, e.serial = 0 →
        e.value = some (.real ⟨0x3ff8000000000000⟩) ∧
        e.value = (Codec.read ((boiler.move .tick).turns reactor boilerTurns).cache
          ⟨2, 4, none, .real⟩).toOption := by
  have hboiler : boiler.Watching :=
    ((Watching.opened (untouched_createDisplay _ _ _) rfl (gives_of_length rfl _)).turn
      (.command (.watch 0 "pressure")) trivial).turn (.command (.watch 0 "flame")) trivial
  have hgives : boiler.Gives fun command => command ≠ .reset :=
    gives_of_length (by decide +kernel) _
  have hfaithful : (boiler.move .tick).Faithful steam boilerTurns := by
    refine ⟨trivial, ⟨trivial, by simp⟩, ?_, trivial, trivial⟩
    change ∀ read ∈ handled? _ _, _
    decide +kernel
  have hexists : ∃ t, boiler.begun? .tick = some t ∧ ∃ read ∈ t.pending,
      read ∈ (boiler.move .tick).brought boilerTurns ∧ ∃ x ∈ read.batch.items,
        .watch 0 ⟨2, 4, none, .real⟩ 1 ∈ x.subscribers := by
    refine ⟨(boiler.begun? .tick).get (by decide +kernel), (Option.some_get _).symm, ?_⟩
    decide +kernel
  obtain ⟨t, hbegun, read, hread, hbrought, x, hx, hs⟩ := hexists
  refine ⟨by decide +kernel, fun e he hserial => ⟨?_, ?_⟩⟩
  · revert e
    decide +kernel
  · have hentry : ∀ e ∈ ((boiler.move .tick).turns reactor boilerTurns).watched, e.serial = 0 →
        e.update = some (.watch 0 ⟨2, 4, none, .real⟩ 1) ∧
          e.resolved = some ⟨2, 4, none, .real⟩ := by decide +kernel
    exact (Watching.value_eq_read hboiler hgives hbegun hfaithful hread hbrought hx he hs
      (hentry e he hserial).1 (hentry e he hserial).2 (by decide +kernel)).1

end Monitor

end LadderMonitor
