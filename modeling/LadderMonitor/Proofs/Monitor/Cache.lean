import LadderMonitor.Proofs.Memory.Image
import LadderMonitor.Proofs.Monitor.Turn

namespace LadderMonitor.Monitor

/-- As long as those outside do not reset, the cache is left alone. -/
def SparesCache (m m' : Monitor) : Prop :=
  m.Gives (fun command => command ≠ .reset) → m.LeadsGently m'

theorem lasting_sparesCache : Lasting SparesCache where
  refl := fun m _ => .refl m
  trans := by
    intro m m' m'' h h' hgiven
    have hfirst := h hgiven
    refine hfirst.trans (h' ?_)
    unfold Gives
    rw [hfirst.runs.reactions]
    exact hgiven

theorem overlooksWatching_sparesCache : OverlooksWatching SparesCache :=
  overlooksWatching_leadsGently.mono lasting_sparesCache fun _ _ h _ => h

theorem within_reactor_sparesCache : reactor.Within SparesCache :=
  overlooksWatching_sparesCache.toOverlooks.within_reactor
    (fun command => command ≠ .reset) (fun _ _ hspares hgiven => hspares hgiven hgiven)
    fun react _ _ hcommand m _ => m.leadsGently_perform react hcommand

variable {m m' : Monitor} {i : Nat} {b : UInt8}

/-- Subscribers and listeners leave a byte of the cache alone, unless those outside reset. -/
theorem byte_of_called (hspares : SparesCache m m') (hleads : m.Leads m')
    (hb : m.cache[i]? = some b) :
    m'.cache[i]? = some b ∨
      m'.cache[i]? = some 0 ∧ ¬ m.Gives fun command => command ≠ .reset := by
  by_cases hgiven : m.Gives fun command => command ≠ .reset
  · rw [(hspares hgiven).cache]
    exact .inl hb
  · rcases hleads.cache with heq | heq
    · rw [heq]
      exact .inl hb
    · obtain ⟨hi, -⟩ := Array.getElem?_eq_some_iff.1 hb
      rw [heq, Bytes.zeros, Array.getElem?_replicate, if_pos hi]
      exact .inr ⟨rfl, hgiven⟩

/-- A reset that returns has zeroed the cache; one that fails has left it alone. -/
theorem cache_reset (m : Monitor) :
    (m.reset reactor).1.cache =
      if (m.reset reactor).2 = none then .zeros m.cache.size else m.cache := by
  have hcache : m.resolveAnew.1.cache = m.cache :=
    (overlooksWatching_leadsGently.resolveAnew m
      fun entry _ m => m.leads_sync entry.1 entry.2).cache
  rw [reset_eq]
  generalize m.resolveAnew = o at hcache ⊢
  obtain ⟨m', fault⟩ := o
  cases fault with
  | some fault => exact hcache
  | none =>
    have hserved : m'.clear.Leads (m'.resetMemory reactor) := by
      have hzeros : m'.clear.Leads (m'.clear.notifyZeros reactor) :=
        (lasting_leadsBy _).foldl
          (fun m r => overlooksWatching_leads.notifyAll m inner_reactor.within r _) _ _
      exact hzeros.trans (inner_reactor.tellAll _)
    have hsize : m'.clear.cache = .zeros m.cache.size := by rw [clear, ← hcache]
    rw [Outcome.andThen, if_pos rfl]
    rcases hserved.cache with heq | heq
    · exact heq.trans hsize
    · rw [heq, hsize, Bytes.zeros, Bytes.zeros, Array.size_replicate]

/-- A byte that is put into the cache: by the reply to a read with a ticket, or by a reset. -/
structure Write where
  ticket? : Option Nat
  byte : UInt8
deriving DecidableEq, Repr

/-- What a turn puts at an address of the cache. -/
def written (i : Nat) (m : Monitor) : Turn → Option Write
  | .reply ticket (.ok data) =>
    match m.handled? (.reply ticket (.ok data)) with
    | some read =>
      if read.batch.start ≤ i ∧ i < read.batch.start + data.size then
        data[(i - read.batch.start).toNat]?.map fun byte => ⟨some read.ticket, byte⟩
      else none
    | none => none
  | .command .reset => if (m.reset reactor).2 = none then some ⟨none, 0⟩ else none
  | _ => none

/-- What turns put at an address of the cache, in order. -/
def writes (i : Nat) (m : Monitor) : List Turn → List Write
  | [] => []
  | v :: rest => (m.written i v).toList ++ writes i (m.turn reactor v) rest

/-- What a byte is after writes in order. -/
def Write.last (b : UInt8) (list : List Write) : UInt8 := list.getLast?.elim b Write.byte

theorem cache_reply {ticket : Nat} {data : Bytes} {read : PendingRead}
    (hhandled : m.handled? (.reply ticket (.ok data)) = some read) (hb : m.cache[i]? = some b) :
    ((m.strike read.ticket).store read.batch.start data).cache[i]? =
      some ((m.written i (.reply ticket (.ok data))).elim b Write.byte) := by
  obtain ⟨hi, -⟩ := Array.getElem?_eq_some_iff.1 hb
  have hstored : ((m.strike read.ticket).store read.batch.start data).cache =
      m.cache.overwrite read.batch.start data.toList := rfl
  rw [hstored, Bytes.getElem?_overwrite _ _ _ hi, Array.length_toList, written, hhandled]
  simp only
  split
  · rename_i hinside
    have hplace : ((i : Int) - read.batch.start).toNat < data.size := by omega
    rw [Array.getElem?_toList, Array.getElem?_eq_getElem hplace]
    rfl
  · exact hb

/-- After a turn a byte of the cache is what the turn put there, or what it was before. Only a reset
by those who are called in the turn may zero it as well. -/
theorem cache_turn (v : Turn) (hb : m.cache[i]? = some b) :
    (m.turn reactor v).cache[i]? = some ((m.written i v).elim b Write.byte) ∨
      (m.turn reactor v).cache[i]? = some 0 ∧ ¬ m.Gives fun command => command ≠ .reset := by
  have hmove (v : Move) (hwrites : v.writes = false) : (m.move v).cache[i]? = some b := by
    rw [(m.spared_move v).cache hwrites]
    exact hb
  cases v with
  | tick => exact .inl (hmove .tick rfl)
  | wake id => exact .inl (hmove (.wake id) rfl)
  | settle which => exact .inl hb
  | clock time => exact .inl hb
  | command command =>
    by_cases hreset : command = .reset
    · subst hreset
      obtain ⟨hi, -⟩ := Array.getElem?_eq_some_iff.1 hb
      rw [turn, perform, cache_reset, written]
      split
      · rw [Bytes.zeros, Array.getElem?_replicate, if_pos hi]
        exact .inl rfl
      · exact .inl hb
    · have hnone : m.written i (.command command) = none := by
        cases command with
        | reset => exact absurd rfl hreset
        | _ => rfl
      rw [turn, (m.leadsGently_perform reactor hreset).cache, hnone]
      exact .inl hb
  | reply ticket answer =>
    rw [turn]
    split
    · rename_i read hhandled
      cases answer with
      | error fault => exact .inl hb
      | ok data =>
        have hspares := overlooksWatching_sparesCache.foldl (fun m r =>
          overlooksWatching_sparesCache.serve m within_reactor_sparesCache read.batch.start data r)
          read.batch.items ((m.strike read.ticket).store read.batch.start data)
        have hleads := (lasting_leadsBy _).foldl (inner_reactor.serve read.batch.start data)
          read.batch.items ((m.strike read.ticket).store read.batch.start data)
        have hserved := byte_of_called hspares hleads (cache_reply hhandled hb)
        exact hserved
    · rename_i hunhandled
      have hnone : m.written i (.reply ticket answer) = none := by
        cases answer with
        | error fault => rfl
        | ok data => rw [written, hunhandled]
      rw [hnone]
      exact .inl hb
  | conclude tick =>
    rw [turn]
    split
    · rename_i tick' _
      obtain ⟨_, heq⟩ := (m.tellAll reactor).closeTick_eq tick'
      have htold := byte_of_called
        (overlooksWatching_sparesCache.tellAll m within_reactor_sparesCache)
        (inner_reactor.tellAll m) hb
      rw [endTick, heq]
      exact htold
    · exact .inl hb

theorem Write.last_append (b : UInt8) (first : Option Write) (rest : List Write) :
    Write.last b (first.toList ++ rest) = Write.last (first.elim b Write.byte) rest := by
  cases first with
  | none => rfl
  | some w =>
    cases rest with
    | nil => rfl
    | cons next rest => simp [Write.last, List.getLast?_cons]

/-- Turns leave a byte as what was put there last. -/
theorem cache_turns (list : List Turn) (hb : m.cache[i]? = some b) :
    (m.turns reactor list).cache[i]? = some (Write.last b (m.writes i list)) ∨
      (m.turns reactor list).cache[i]? = some 0 ∧ ¬ m.Gives fun command => command ≠ .reset := by
  induction list generalizing m b with
  | nil => exact .inl hb
  | cons v rest ih =>
    have hgives : (m.turn reactor v).Gives (fun command => command ≠ .reset) ↔
        m.Gives fun command => command ≠ .reset := by
      rw [Gives, Gives, (inner_reactor.runs_turn m v).reactions]
    change ((m.turn reactor v).turns reactor rest).cache[i]? = _ ∨ _ = _ ∧ _
    rw [writes, Write.last_append]
    rcases cache_turn v hb with hput | ⟨hzero, hresets⟩
    · rw [← hgives]
      exact ih hput
    · rcases ih hzero with hlater | ⟨hlater, -⟩
      · -- What is put there after the zero counts, and if nothing is, the zero stays.
        cases hwrites : (m.turn reactor v).writes i rest with
        | nil =>
          rw [hwrites] at hlater
          exact .inr ⟨hlater, hresets⟩
        | cons w others =>
          rw [hwrites] at hlater
          refine .inl (hlater.trans ?_)
          simp [Write.last, List.getLast?_cons]
      · exact .inr ⟨hlater, hresets⟩

theorem waits_of_written {v : Turn} {w : Write} (hw : m.written i v = some w) {ticket : Nat}
    (hticket : w.ticket? = some ticket) : ∃ read, m.Waits read ∧ read.ticket = ticket := by
  unfold written at hw
  split at hw
  · split at hw
    · rename_i read hhandled
      split at hw
      · obtain ⟨byte, -, rfl⟩ := Option.map_eq_some_iff.1 hw
        exact ⟨read, waits_of_handled? hhandled, Option.some.inj hticket⟩
      · cases hw
    · cases hw
  · split at hw
    · obtain rfl := Option.some.inj hw
      cases hticket
    · cases hw
  · cases hw

/-- A reply belongs to a read that was waiting before, or that was asked since. -/
theorem ticket_of_writes {list : List Turn} {w : Write} (hw : w ∈ m.writes i list) {ticket : Nat}
    (hticket : w.ticket? = some ticket) :
    (∃ read, m.Waits read ∧ read.ticket = ticket) ∨ m.nextStamp < ticket := by
  induction list generalizing m with
  | nil => cases hw
  | cons v rest ih =>
    rw [writes, List.mem_append, Option.mem_toList] at hw
    rcases hw with hnow | hlater
    · obtain ⟨read, hwaits, hown⟩ := waits_of_written hnow hticket
      exact .inl ⟨read, hwaits, hown⟩
    · rcases ih hlater with ⟨read, hwaits, rfl⟩ | hnew
      · rcases inner_reactor.asks_turn m v read hwaits with hold | ⟨hnew, -⟩
        · exact .inl ⟨read, hold, rfl⟩
        · exact .inr hnew
      · exact .inr (Nat.lt_of_le_of_lt (inner_reactor.runs_turn m v).nextStamp_le hnew)

/-- Every byte of the cache is what was put there last, by a reply that reaches it or by a reset
that returns; a reset puts a zero at every address.

A reply counts whenever it comes. Its read may have been in flight already, so a byte that a reset
has zeroed stays zero until a read that reaches it is answered, be the read asked before the reset
or after it. Only resets by subscribers and listeners are not told apart from the turn in which they
are called; these too put zeros. -/
theorem cache_shows_last_write (hb : m.cache[i]? = some b) (list : List Turn) :
    ((m.turns reactor list).cache[i]? = some (Write.last b (m.writes i list)) ∨
      (m.turns reactor list).cache[i]? = some 0 ∧ ¬ m.Gives fun command => command ≠ .reset) ∧
    (∀ w ∈ m.writes i list, ∀ ticket, w.ticket? = some ticket →
      (∃ read, m.Waits read ∧ read.ticket = ticket) ∨ m.nextStamp < ticket) ∧
    ((m.reset reactor).2 = none → (m.reset reactor).1.cache = .zeros m.cache.size) := by
  refine ⟨cache_turns list hb, fun w hw ticket hticket => ticket_of_writes hw hticket, ?_⟩
  intro hreturns
  rw [cache_reset, if_pos hreturns]

/-- A gauge that two ticks have asked for before memory was reset. -/
def tide : Monitor :=
  (create { cacheSize := 8 } {}).turns reactor
    [.command (.register ⟨.named "tide", ⟨0, 1⟩⟩ (.outside "gauge")), .tick, .tick, .command .reset]

theorem tide_shows_last_write :
    tide.cache[0]? = some 0 ∧
      tide.writes 0 [.reply 4 (.ok #[9]), .tick, .reply 6 (.ok #[5])] = [⟨some 4, 9⟩, ⟨some 6, 5⟩] ∧
      (tide.turns reactor [.reply 4 (.ok #[9]), .tick, .reply 6 (.ok #[5])]).cache[0]? =
        some 5 := by
  have hzero : tide.cache[0]? = some 0 := by decide +kernel
  have hwrites : tide.writes 0 [.reply 4 (.ok #[9]), .tick, .reply 6 (.ok #[5])] =
      [⟨some 4, 9⟩, ⟨some 6, 5⟩] := by decide +kernel
  refine ⟨hzero, hwrites, ?_⟩
  obtain ⟨hlast | ⟨-, hresets⟩, -⟩ :=
    cache_shows_last_write hzero [.reply 4 (.ok #[9]), .tick, .reply 6 (.ok #[5])]
  · rw [hlast, hwrites]
    rfl
  · exact absurd (gives_of_length (by decide +kernel) _) hresets

/-- A reply from before the reset is stored, and so is the reply to the earlier of two ticks after
that to the later one. -/
theorem stale_replies_stored :
    tide.cache = .zeros 8 ∧ tide.ticks.map (·.id) = [1, 3] ∧
      tide.heldReads.map (·.2.ticket) = [2, 4] ∧
      (tide.turn reactor (.reply 2 (.ok #[7]))).cache[0]? = some 7 ∧
      (tide.turns reactor [.reply 4 (.ok #[9]), .reply 2 (.ok #[7])]).cache[0]? = some 7 := by
  decide +kernel

end LadderMonitor.Monitor
