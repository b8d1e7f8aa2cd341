import LadderMonitor.Proofs.Monitor.Foreign
import LadderMonitor.Proofs.Monitor.Markers

namespace LadderMonitor

/-- The number under which a subscriber was made, unless it is from outside. -/
def Subscriber.stamp? : Subscriber → Option Nat
  | outside _ => none
  | display _ stamp | watch _ _ stamp => some stamp

/-- Whether something done is a delivery to a subscriber under a key. -/
def Event.hands (key : RegistrationKey) (s : Subscriber) : Event → Bool
  | delivered k s' _ => k = key && s' = s
  | _ => false

theorem Event.hands_eq_false_of_opensTick {key : RegistrationKey} {s : Subscriber} {event : Event}
    (h : event.opensTick) : event.hands key s = false := by
  cases event with
  | delivered => cases h
  | _ => rfl

namespace Monitor

/-- The deliveries to a subscriber under a key so far. -/
def deliveries (key : RegistrationKey) (s : Subscriber) (m : Monitor) : List Event :=
  m.journal.filter (Event.hands key s)

/-- Whether a waiting read still serves a registration that was removed as a whole while a
subscriber had it under a key. -/
def Owes (m : Monitor) (key : RegistrationKey) (s : Subscriber) : Prop :=
  ∃ read, m.Waits read ∧ ∃ r ∈ read.batch.items, ∃ x ∈ m.retired,
    x.serial = r.serial ∧ x.key = key ∧ s ∈ x.subscribers

variable {m m' : Monitor} {key : RegistrationKey} {s s' : Subscriber} {r : Registration} {v : Move}

/-- Whoever serves a registration does not find a subscriber under a key. -/
structure Silent (key : RegistrationKey) (s : Subscriber) (r : Registration) (m : Monitor) : Prop
    extends Known r m where
  absent : r.key = key → ∀ x ∈ m.records, x.serial = r.serial → s ∉ x.subscribers

theorem Silent.move (h : m.Silent key s r) (hv : v ≠ .register key s) :
    (m.move v).Silent key s r where
  toKnown := h.toKnown.move v
  absent := by
    intro hkey x hx hserial hs
    have hsame := (h.toKnown.move v).keyed x hx hserial
    cases m.origin_move v hx with
    | kept old hold holdSerial _ hsubscribers =>
      rcases hsubscribers s hs with hold' | rfl
      · exact h.absent hkey old hold (holdSerial.symm.trans hserial) hold'
      · exact hv (by rw [hsame, hkey])
    | opened s' _ hnew =>
      have hbelow := h.below
      rw [← hserial, hnew] at hbelow
      exact Nat.lt_irrefl _ hbelow

theorem Silent.not_mem (h : m.Silent key s r) (hs' : s' ∈ m.subscribersOf r.serial) :
    ¬ (r.key = key ∧ s' = s) := by
  rintro ⟨hkey, rfl⟩
  obtain ⟨x, hx, hserial, hmem⟩ := exists_record_of_subscribersOf hs'
  exact h.absent hkey x hx hserial hmem

/-- A subscriber is not registered under a key, and nobody will register it: it is no marker in use,
it is none that is made later, and those outside do not register it. -/
structure Removed (key : RegistrationKey) (s : Subscriber) (m : Monitor) : Prop where
  recorded : m.Recorded
  unheld : ¬ m.registry.Holds key s
  given : m.Gives fun command => command ≠ .register key s
  unmarked : ∀ entry ∈ m.display.markers, entry.2 ≠ s
  made : ∀ stamp, s.stamp? = some stamp → stamp < m.nextStamp

theorem not_holds_move (hunheld : ¬ m.registry.Holds key s) (hv : v ≠ .register key s) :
    ¬ (m.move v).registry.Holds key s := by
  by_cases hspares : v.sparesRecords
  · rwa [(records_move_of_spares hspares m).1]
  · cases v with
    | register k s' =>
      rw [move, holds_register]
      rintro (⟨rfl, rfl, -⟩ | hheld)
      · exact hv rfl
      · exact hunheld hheld
    | unregister k s' =>
      obtain ⟨_, heq⟩ := m.unregister_eq k s'
      rw [move, heq]
      rintro ⟨x, hx, hkey, hs⟩
      obtain ⟨old, hold, -, holdKey, hsubscribers⟩ := Registry.mem_remove hx
      exact hunheld ⟨old, hold, holdKey.symm.trans hkey, hsubscribers s hs⟩
    | unregisterAll requester =>
      obtain ⟨_, heq⟩ := m.unregisterAll_eq requester
      rw [move, heq, Registry.holds_removeAll]
      exact fun hheld => hunheld hheld.1
    | _ => exact absurd rfl hspares

namespace Removed

theorem move (h : m.Removed key s) (hv : v ≠ .register key s)
    (hdisplay : ∀ display, v = .display display → ∀ entry ∈ display.markers, entry.2 ≠ s) :
    (m.move v).Removed key s where
  recorded := h.recorded.move v
  unheld := not_holds_move h.unheld hv
  given := by
    unfold Gives
    rw [(m.spared_move v).reactions]
    exact h.given
  unmarked := by
    by_cases hchanged : ∃ display, v = .display display
    · obtain ⟨display, rfl⟩ := hchanged
      exact hdisplay display rfl
    · rw [(m.spared_move v).display fun display heq => hchanged ⟨display, heq⟩]
      exact h.unmarked
  made := fun stamp hstamp => Nat.lt_of_lt_of_le (h.made stamp hstamp) (m.nextStamp_le_move v)

/-- A registration that there is does not have the subscriber. -/
theorem silent (h : m.Removed key s) (hr : r ∈ m.registry) : m.Silent key s r where
  toKnown := h.recorded.known (List.mem_append_left _ hr)
  absent := by
    intro hkey x hx hserial hs
    rcases List.mem_append.1 hx with hx | hx
    · have hsame : x = r := List.inj_on_of_nodup_map h.recorded.serials
        (List.mem_append_left _ hx) (List.mem_append_left _ hr) hserial
      exact h.unheld ⟨r, hr, hkey, hsame ▸ hs⟩
    · exact h.recorded.apart hr hx hserial

end Removed

/-- Once a subscriber is removed it stays so, nothing is delivered to it, and whoever does not find
it will not find it later. -/
def Shuns (key : RegistrationKey) (s : Subscriber) (m m' : Monitor) : Prop :=
  m.Removed key s → m'.Removed key s ∧ m'.deliveries key s = m.deliveries key s ∧
    ∀ r, m.Silent key s r → m'.Silent key s r

theorem lasting_shuns : Lasting (Shuns key s) where
  refl := fun _ h => ⟨h, rfl, fun _ => id⟩
  trans := by
    intro m m' m'' h h' hremoved
    obtain ⟨hremoved', hsame, hsilent⟩ := h hremoved
    obtain ⟨hremoved'', hsame', hsilent'⟩ := h' hremoved'
    exact ⟨hremoved'', hsame'.trans hsame, fun r hr => hsilent' r (hsilent r hr)⟩

theorem deliveries_move (m : Monitor)
    (hnote : ∀ event, v = .note event → event.hands key s = false) :
    (m.move v).deliveries key s = m.deliveries key s := by
  obtain ⟨events, heq, hevents⟩ := (m.spared_move v).journal
  rw [deliveries, heq, List.filter_append, List.filter_eq_nil_iff.2, List.nil_append, deliveries]
  intro event hevent
  rcases hevents event hevent with hv | hopens
  · rw [hnote event hv]
    exact Bool.false_ne_true
  · rw [Event.hands_eq_false_of_opensTick hopens]
    exact Bool.false_ne_true

theorem shuns_move (m : Monitor) (hv : v ≠ .register key s)
    (hdisplay : m.Removed key s → ∀ display, v = .display display →
      ∀ entry ∈ display.markers, entry.2 ≠ s)
    (hnote : ∀ event, v = .note event → event.hands key s = false) :
    Shuns key s m (m.move v) :=
  fun h => ⟨h.move hv (hdisplay h), m.deliveries_move hnote, fun _ hr => hr.move hv⟩

/-- Whether a move neither registers nor notes anything nor changes the display. -/
def Move.isMute : Move → Bool
  | register .. | note _ | display _ => false
  | _ => true

theorem shuns_mute (m : Monitor) (hmute : v.isMute) : Shuns key s m (m.move v) := by
  refine shuns_move m ?_ ?_ ?_
  · rintro rfl
    cases hmute
  · rintro - _ rfl
    cases hmute
  · rintro _ rfl
    cases hmute

theorem shuns_note (m : Monitor) {event : Event} (hevent : event.hands key s = false) :
    Shuns key s m (m.note event) :=
  shuns_move m (v := .note event) (by simp) (by simp) (by simpa using hevent)

theorem shuns_display (m : Monitor) (display : Display)
    (hmarkers : m.Removed key s → ∀ entry ∈ display.markers, entry.2 ≠ s) :
    Shuns key s m { m with display } :=
  shuns_move m (v := .display display) (by simp) (by simpa using hmarkers) (by simp)

theorem shuns_register (m : Monitor) {k : RegistrationKey} (hother : k = key → s' ≠ s) :
    Shuns key s m (m.register k s').1 := by
  refine shuns_move m (v := .register k s') ?_ (by simp) (by simp)
  intro heq
  obtain ⟨rfl, rfl⟩ := Move.register.inj heq
  exact hother rfl rfl

theorem overlooks_shuns : Overlooks (Shuns key s) := by
  refine .of_shown lasting_shuns (fun m net => m.shuns_note rfl) (fun m report => m.shuns_note rfl)
    ?_
  intro m active workspace due watchLists
  refine lasting_shuns.trans (m.shuns_mute (v := .active active) rfl) ?_
  refine lasting_shuns.trans (shuns_mute _ (v := .watchLists watchLists) rfl) ?_
  exact shuns_display _ _ fun h => h.unmarked

theorem overlooksEntries_shuns : OverlooksEntries (Shuns key s) where
  toOverlooksLists := overlooks_shuns.toOverlooksLists
  unregister := fun m range s' => m.shuns_mute (v := .unregister ⟨.watch, range⟩ s') rfl
  stamp := fun m => m.shuns_mute (v := .stamp) rfl
  subscribeEntry := by
    intro m serial r h
    have hfresh : Subscriber.watch serial r m.nextStamp ≠ s := by
      rintro rfl
      exact Nat.lt_irrefl _ (h.made _ rfl)
    refine lasting_shuns.trans (m.shuns_mute (v := .stamp) rfl) ?_ h
    exact lasting_shuns.trans (overlooks_shuns.modifyEntry _ _ _) (shuns_register _ fun _ => hfresh)

theorem shuns_marker (m : Monitor) (requester : Requester) (h : m.Removed key s) :
    (m.marker requester).2 ≠ s ∧ Shuns key s m (m.marker requester).1 := by
  rcases m.marker_cases requester with ⟨s', hs', heq⟩ | ⟨-, heq⟩
  · rw [heq]
    exact ⟨h.unmarked _ (Assoc.mem_of_get? hs'), lasting_shuns.refl m⟩
  · have hfresh : Subscriber.display requester m.nextStamp ≠ s := by
      rintro rfl
      exact Nat.lt_irrefl _ (h.made _ rfl)
    rw [heq]
    refine ⟨hfresh, lasting_shuns.trans (m.shuns_mute (v := .stamp) rfl) ?_⟩
    refine shuns_display m.stamp.1 _ fun hstamped entry hentry => ?_
    rcases Assoc.mem_of_mem_set hentry with rfl | hold
    · exact hfresh
    · exact h.unmarked entry hold

theorem shuns_sync (m : Monitor) (requester : Requester) (net : Nat) :
    Shuns key s m (m.sync requester net).1 := by
  intro h
  obtain ⟨hother, hmarked⟩ := m.shuns_marker requester h
  exact lasting_shuns.sync net hmarked (fun m _ => m.shuns_register fun _ => hother)
    (fun m range => m.shuns_mute (v := .unregister ⟨requester, range⟩ _) rfl) h

theorem shuns_attach (m : Monitor) (net : Nat) : Shuns key s m (m.attach net).1 :=
  overlooks_shuns.attach m net (shuns_display _ _ fun h => h.unmarked) fun m => m.shuns_sync _ net

theorem shuns_detach (m : Monitor) (net : Nat) : Shuns key s m (m.detach net) :=
  lasting_shuns.detach net
    (m.shuns_display _ fun h entry hentry => h.unmarked entry (List.mem_of_mem_filter hentry))
    fun m => m.shuns_mute (v := .unregisterAll _) rfl

/-- Registrations that do not find the subscriber make no delivery one after the other. -/
theorem shuns_foldl {f : Monitor → Registration → Monitor}
    (hf : ∀ m r, m.Silent key s r → Shuns key s m (f m r)) {items : List Registration} {m : Monitor}
    (hitems : m.Removed key s → ∀ r ∈ items, m.Silent key s r) :
    Shuns key s m (items.foldl f m) := by
  intro h
  replace hitems := hitems h
  induction items generalizing m with
  | nil => exact lasting_shuns.refl m h
  | cons r rest ih =>
    obtain ⟨hr, hrest⟩ := List.forall_mem_cons.1 hitems
    obtain ⟨hremoved, hsame, hsilent⟩ := hf m r hr h
    obtain ⟨hremoved', hsame', hsilent'⟩ := ih hremoved fun r hr => hsilent r (hrest r hr)
    exact ⟨hremoved', hsame'.trans hsame, fun r hr => hsilent' r (hsilent r hr)⟩

section Reactions

variable {react : Reactor} (hreact : react.Within (Shuns key s))

include hreact

/-- Whoever serves a registration makes no delivery, if it does not find the subscriber. -/
theorem shuns_notifyAll (m : Monitor) (hsilent : m.Silent key s r) (data : Bytes) :
    Shuns key s m (m.notifyAll react r data) := by
  have hothers : ∀ s' ∈ m.subscribersOf r.serial,
      Event.hands key s (.delivered r.key s' data) = false := by
    intro s' hs'
    simpa [Event.hands] using fun hkey => mt (And.intro hkey) (hsilent.not_mem hs')
  unfold notifyAll
  generalize m.subscribersOf r.serial = subscribers at hothers
  clear hsilent
  induction subscribers generalizing m with
  | nil => exact lasting_shuns.refl m
  | cons s' rest ih =>
    obtain ⟨hother, hrest⟩ := List.forall_mem_cons.1 hothers
    have hnotified : Shuns key s m (m.notify react r.key data s') :=
      overlooks_shuns.reportIf (lasting_shuns.trans (m.shuns_note hother) (hreact.deliver _ _ _)) _
    exact lasting_shuns.trans hnotified (ih _ hrest)

theorem shuns_serve (m : Monitor) (hsilent : m.Silent key s r) (start : Int) (data : Bytes) :
    Shuns key s m (m.serve react start data r) := by
  unfold serve
  simp only
  split
  · exact lasting_shuns.refl m
  · exact shuns_notifyAll hreact m hsilent _

theorem shuns_tellAll (m : Monitor) : Shuns key s m (m.tellAll react) :=
  overlooks_shuns.tellAll m (fun m _ => m.shuns_note rfl) hreact.tell

theorem shuns_reset (m : Monitor) : Shuns key s m (m.reset react).1 := by
  refine overlooks_shuns.reset m (fun entry _ m => m.shuns_sync entry.1 entry.2) fun m => ?_
  have hzeros : Shuns key s m.clear (m.clear.notifyZeros react) :=
    shuns_foldl (fun m r hr => shuns_notifyAll hreact m hr _) fun h r hr => h.silent hr
  exact lasting_shuns.trans (m.shuns_mute (v := .clear) rfl)
    (lasting_shuns.trans hzeros (shuns_tellAll hreact _))

theorem shuns_perform (m : Monitor) {command : Command} (hcommand : command ≠ .register key s) :
    Shuns key s m (m.perform react command).1 := by
  cases command with
  | register k s' => exact m.shuns_register fun hk hs => hcommand (by rw [hk, hs])
  | unregister k s' => exact m.shuns_mute (v := .unregister k s') rfl
  | unregisterAll requester => exact m.shuns_mute (v := .unregisterAll requester) rfl
  | reset => exact shuns_reset hreact m
  | attach net => exact m.shuns_attach net
  | detach net => exact m.shuns_detach net
  | edit edit => exact m.shuns_display _ fun h => h.unmarked
  | _ =>
    refine overlooks_shuns.perform overlooksEntries_shuns (fun m v hswitch => ?_) react rfl m
    refine m.shuns_mute ?_
    cases v with
    | register | note | display => cases hswitch
    | _ => rfl

end Reactions

theorem within_reactor_shuns : reactor.Within (Shuns key s) :=
  overlooks_shuns.within_reactor (fun command => command ≠ .register key s)
    (fun _ _ hshuns hremoved => hshuns hremoved.given hremoved)
    fun _ hreact _ hcommand m => shuns_perform hreact m hcommand

/-- Nobody who waits for an answer finds the subscriber. -/
def Unserved (key : RegistrationKey) (s : Subscriber) (m : Monitor) : Prop :=
  ∀ read, m.Waits read → ∀ r ∈ read.batch.items, m.Silent key s r

theorem shuns_turn (hunserved : m.Unserved key s) {v : Turn}
    (hv : v ≠ .command (.register key s)) : Shuns key s m (m.turn reactor v) := by
  cases v with
  | command command =>
    exact shuns_perform within_reactor_shuns m fun heq => hv (by rw [heq])
  | tick => exact m.shuns_mute (v := .tick) rfl
  | wake id => exact m.shuns_mute (v := .wake id) rfl
  | settle which => exact m.shuns_mute (v := .settle which) rfl
  | clock time => exact m.shuns_mute (v := .clock time) rfl
  | reply ticket answer =>
    rw [turn]
    split
    · rename_i read hhandled
      obtain ⟨⟨tick, read⟩, hfind, rfl⟩ := Option.map_eq_some_iff.1 hhandled
      have hwaits : m.Waits read := ⟨tick, mem_heldReads.1 (List.mem_of_find?_eq_some hfind)⟩
      have hstruck : Shuns key s m (m.strike read.ticket) :=
        m.shuns_mute (v := .strike read.ticket) rfl
      cases answer with
      | error fault => exact lasting_shuns.trans hstruck (shuns_note _ rfl)
      | ok data =>
        have hstored := lasting_shuns.trans hstruck
          (shuns_mute _ (v := .store read.batch.start data) rfl)
        intro h
        refine lasting_shuns.trans hstored (shuns_foldl (fun m r hr => ?_) fun _ r hr => ?_) h
        · exact shuns_serve within_reactor_shuns m hr read.batch.start data
        · exact (hstored h).2.2 r (hunserved read hwaits r hr)
    · exact lasting_shuns.refl m
  | conclude tick =>
    rw [turn]
    split
    · rename_i tick' hended
      obtain ⟨rfl, hmem, hpending⟩ := ended?_eq_some_iff.1 hended
      have hdue : tick ∈ (m.tellAll reactor).ticks ∧ tick.pending = [] :=
        ⟨by rwa [(inner_reactor.tellAll m).frame.ticks], hpending⟩
      have hclosed : Shuns key s (m.tellAll reactor) ((m.tellAll reactor).closeTick tick) := by
        have hmoved : Shuns key s (m.tellAll reactor) ((m.tellAll reactor).move (.close tick)) :=
          shuns_mute _ rfl
        rwa [move, if_pos hdue] at hmoved
      exact lasting_shuns.trans (shuns_tellAll within_reactor_shuns m) hclosed
    · exact lasting_shuns.refl m

theorem Unserved.turn (hunserved : m.Unserved key s) (h : m.Removed key s) {v : Turn}
    (hv : v ≠ .command (.register key s)) : (m.turn reactor v).Unserved key s := by
  obtain ⟨-, -, hsilent⟩ := shuns_turn hunserved hv h
  intro read hwaits r hr
  rcases inner_reactor.asks_turn m v read hwaits with hold | ⟨-, -, hregistered⟩
  · exact hsilent r (hunserved read hold r hr)
  · exact hsilent r (h.silent (hregistered r hr))

theorem Removed.deliveries_turns (h : m.Removed key s) (hunserved : m.Unserved key s)
    {list : List Turn} (hlist : .command (.register key s) ∉ list) :
    (m.turns reactor list).deliveries key s = m.deliveries key s := by
  induction list generalizing m with
  | nil => rfl
  | cons v rest ih =>
    obtain ⟨hv, hrest⟩ := List.ne_and_not_mem_of_not_mem_cons hlist
    obtain ⟨hremoved, hsame, -⟩ := shuns_turn hunserved (Ne.symm hv) h
    exact (ih hremoved (hunserved.turn h (Ne.symm hv)) hrest).trans hsame

/-- Whoever is not registered under a key any more is not called under it until somebody registers
it again, unless a read still waits that serves a registration which was removed as a whole while
the subscriber had it.

The subscriber may be from outside or one that was made before; only the markers of attached
networks are excluded, since attaching and resetting register those. Ticks may begin, be answered
and end in any order before and after, and registrations may come and go. -/
theorem Untouched.not_delivered {m₀ : Monitor} (h : m₀.Untouched) (past : List Turn)
    (hm : m = m₀.turns reactor past) (hunheld : ¬ m.registry.Holds key s) (howes : ¬ m.Owes key s)
    (hmade : ∀ stamp, s.stamp? = some stamp → stamp < m.nextStamp)
    (hunused : ∀ requester stamp, s = .display requester stamp →
      (requester, s) ∉ m.display.markers)
    (hgiven : m.Gives fun command => command ≠ .register key s) {list : List Turn}
    (hlist : .command (.register key s) ∉ list) :
    (m.turns reactor list).deliveries key s = m.deliveries key s := by
  have hrecorded : m.Recorded := by
    rw [hm]
    exact h.recorded.of_runs (inner_reactor.runs_turns m₀ past)
  have hremoved : m.Removed key s := by
    refine ⟨hrecorded, hunheld, hgiven, ?_, hmade⟩
    rintro ⟨requester, s'⟩ hentry rfl
    have hown : m.OwnMarkers := by
      rw [hm]
      exact h.ownMarkers.turns past
    obtain ⟨stamp, hdisplay⟩ := hown _ hentry
    exact hunused requester stamp hdisplay hentry
  refine hremoved.deliveries_turns (fun read hwaits r hr => ?_) hlist
  have hknown := hrecorded.served read hwaits r hr
  refine ⟨hknown, fun hkey x hx hserial hs => ?_⟩
  have hsame : x.key = key := (hknown.keyed x hx hserial).trans hkey
  rcases List.mem_append.1 hx with hx | hx
  · exact hunheld ⟨x, hx, hsame, hs⟩
  · exact howes ⟨read, hwaits, r, hr, x, hx, hserial, hsame, hs⟩

/-- Where ships wait. -/
def berth : RegistrationKey := ⟨.named "quay", ⟨0, 1⟩⟩

/-- What has happened on a quay: a lamp was registered, and a tick has begun. -/
def quayPast : List Turn := [.command (.register berth (.outside "lamp")), .tick]

/-- A quay whose lamp waits for its byte. -/
def quay : Monitor := (create { cacheSize := 8 } { memory := #[1] }).turns reactor quayPast

theorem quay_not_delivered :
    quay.heldReads.map (·.2.ticket) = [2] ∧
      ((quay.unregister berth (.outside "lamp")).turns reactor
        [.reply 2 (.ok #[1]), .tick]).deliveries berth (.outside "lamp") = [] := by
  have hleft : (quay.unregister berth (.outside "lamp")).registry = [] := by decide +kernel
  have hretired : (quay.unregister berth (.outside "lamp")).retired = [] := by decide +kernel
  have hsilent :
      (quay.unregister berth (.outside "lamp")).deliveries berth (.outside "lamp") = [] := by
    decide +kernel
  refine ⟨by decide +kernel, .trans ?_ hsilent⟩
  refine Untouched.not_delivered (untouched_create { cacheSize := 8 } { memory := #[1] })
    (quayPast ++ [.command (.unregister berth (.outside "lamp"))]) ?_ ?_ ?_ ?_ ?_ ?_ ?_
  · rw [turns, List.foldl_append]
    rfl
  · rw [hleft]
    exact Registry.not_holds_nil
  · rintro ⟨-, -, -, -, x, hx, -⟩
    rw [hretired] at hx
    cases hx
  · intro stamp hstamp
    cases hstamp
  · intro requester stamp hdisplay
    cases hdisplay
  · exact gives_of_length (by decide +kernel) _
  · simp

/-- The lamp whose registrations were removed as a whole is called, although it is not registered.
-/
theorem delivered_after_unregisterAll :
    (quay.unregisterAll (.named "quay")).registry = [] ∧
      (quay.unregisterAll (.named "quay")).deliveries berth (.outside "lamp") = [] ∧
      ((quay.unregisterAll (.named "quay")).turn reactor (.reply 2 (.ok #[1]))).deliveries berth
        (.outside "lamp") = [.delivered berth (.outside "lamp") #[1]] := by
  decide +kernel

end Monitor

end LadderMonitor
