import StratumBridge.Listener.Connections

/-! # Tickets and departures

Whatever the tasks of the listener do and however they interleave, a task holds its ticket until
it is over, and the disconnect loop hears of its end once.
-/

namespace StratumBridge

variable {Ip : Type}

/-! ## Lists with one item changed -/

section Lists

variable {α β : Type}

theorem filterMap_modify {held : α → Option β} {move : α → α} :
    ∀ {items : List α} {index : Nat},
      (∀ item, items[index]? = some item → held (move item) = held item) →
        (items.modify index move).filterMap held = items.filterMap held
  | [], _, _ => by simp
  | item :: items, 0, same => by
      simp [List.filterMap_cons, same item rfl]
  | item :: items, index + 1, same => by
      have rest := @filterMap_modify held move items index fun other found => same other found
      simp [List.filterMap_cons, rest]

theorem perm_filterMap_modify {held : α → Option β} {move : α → α} {item : α} {value : β} :
    ∀ {items : List α} {index : Nat}, items[index]? = some item → held item = some value →
      held (move item) = none →
        (items.filterMap held).Perm (value :: (items.modify index move).filterMap held)
  | [], _, found, _, _ => by simp at found
  | first :: items, 0, found, holds, gives => by
      obtain rfl : first = item := by simpa using found
      simp [holds, gives]
  | first :: items, index + 1, found, holds, gives => by
      have rest := @perm_filterMap_modify held move item value items index found holds gives
      cases own : held first with
      | none => simpa [List.filterMap_cons, own] using rest
      | some kept =>
          simp only [List.modify_succ_cons, List.filterMap_cons, own]
          exact (rest.cons kept).trans (.swap ..)
end Lists

/-! ## Moves of a task -/

namespace Peer

/-- The ticket a task holds. -/
def ticket (peer : Peer Ip) : Option Ip := if peer.phase = .over then none else some peer.ip

/-- A move of a task that neither ends it nor undoes its end. -/
structure Carries (peer after : Peer Ip) : Prop where
  ip : after.ip = peer.ip
  phase : after.phase = peer.phase ∨ peer.phase.ended = false ∧ after.phase.ended = false
  cut : after.loop.connected = true → peer.loop.connected = true

theorem Carries.refl (peer : Peer Ip) : Carries peer peer := ⟨rfl, .inl rfl, id⟩

theorem Carries.ended {peer after : Peer Ip} (carries : Carries peer after) :
    after.phase.ended = peer.phase.ended := by
  obtain same | ⟨before, now⟩ := carries.phase
  · rw [same]
  · rw [before, now]

theorem Carries.ticket {peer after : Peer Ip} (carries : Carries peer after) :
    after.ticket = peer.ticket := by
  obtain same | ⟨before, now⟩ := carries.phase
  · rw [Peer.ticket, Peer.ticket, same, carries.ip]
  · have open' : peer.phase ≠ .over := fun departed => by simp [departed, Phase.ended] at before
    have still : after.phase ≠ .over := fun departed => by simp [departed, Phase.ended] at now
    rw [Peer.ticket, Peer.ticket, if_neg open', if_neg still, carries.ip]

theorem carries_disconnect (peer : Peer Ip) : Carries peer peer.disconnect :=
  ⟨rfl, .inl rfl, nofun⟩

theorem carries_begin (peer : Peer Ip) : Carries peer peer.begin := by
  unfold begin
  split
  next looping =>
    refine ⟨rfl, .inr ⟨by rw [looping]; rfl, ?_⟩, id⟩
    dsimp only
    split <;> rfl
  next => exact .refl peer

theorem carries_receive (peer : Peer Ip) (chunk : List UInt8) (now : ℚ) :
    Carries peer (peer.receive chunk now) := by
  unfold receive
  split
  next reading =>
    have before : peer.phase.ended = false := by rw [reading]; rfl
    dsimp only
    split
    · exact ⟨rfl, .inr ⟨before, rfl⟩, nofun⟩
    · split
      · exact ⟨rfl, .inr ⟨before, rfl⟩, nofun⟩
      · exact ⟨rfl, .inr ⟨before, rfl⟩, id⟩
  next => exact .refl peer

theorem carries_hangUp (peer : Peer Ip) : Carries peer peer.hangUp := by
  unfold hangUp
  split
  next reading => exact ⟨rfl, .inr ⟨by rw [reading]; rfl, rfl⟩, id⟩
  next => exact .refl peer

theorem carries_timeOut (peer : Peer Ip) (authorized : Bool) (now : ℚ) :
    Carries peer (peer.timeOut authorized now) := by
  unfold timeOut
  split
  next reading =>
    refine ⟨rfl, .inr ⟨by rw [reading]; rfl, ?_⟩, id⟩
    dsimp only
    split <;> rfl
  next => exact .refl peer

theorem carries_skim (peer : Peer Ip) : Carries peer peer.skim := by
  unfold skim
  split
  next lines =>
    have before : peer.phase.ended = false := by rw [lines]; rfl
    split
    · exact ⟨rfl, .inr ⟨before, rfl⟩, id⟩
    · dsimp only
      split
      · exact ⟨rfl, .inl rfl, id⟩
      · exact ⟨rfl, .inr ⟨before, rfl⟩, nofun⟩
  next => exact .refl peer

theorem metered_phase {peer : Peer Ip} {found : List Char × List Char}
    (metered : peer.metered = some found) : peer.phase = .lines := by
  by_contra other
  rw [Peer.metered, if_neg other] at metered
  exact nomatch metered

theorem carries_dispatch (serde : SerdeJson) {peer : Peer Ip} (lines : peer.phase = .lines)
    (line rest : List Char) (granted : Bool) :
    Carries peer (peer.dispatch serde line rest granted) := by
  have before : peer.phase.ended = false := by rw [lines]; rfl
  cases granted with
  | false => exact ⟨rfl, .inr ⟨before, rfl⟩, nofun⟩
  | true =>
      refine ⟨rfl, .inr ⟨before, ?_⟩, id⟩
      simp only [dispatch, if_true]
      split <;> rfl

theorem carries_resume (peer : Peer Ip) : Carries peer peer.resume := by
  unfold resume
  split
  next handling => exact ⟨rfl, .inr ⟨by rw [handling]; rfl, rfl⟩, id⟩
  next => exact .refl peer

end Peer

/-! ## Calls of the guard -/

namespace AntiAbuseState

variable [DecidableEq Ip]

/-- Only the numbers of the tickets matter. -/
theorem Consistent.recount {config : AntiAbuseConfig} {guard : AntiAbuseGuard Ip}
    {tickets others : List Ip} (consistent : Consistent config ⟨guard, tickets⟩)
    (same : tickets.Perm others) : Consistent config ⟨guard, others⟩ :=
  ⟨fun ip => (consistent.counted ip).trans (same.count_eq ip), consistent.tracked,
    consistent.capped, consistent.bounded⟩

end AntiAbuseState

namespace Listener

variable [DecidableEq Ip]

/-- The tickets of the tasks that run. -/
def tickets (listener : Listener Ip) : List Ip := listener.peers.filterMap Peer.ticket

/-- The guard with the tickets it has handed out. -/
def abuse (listener : Listener Ip) : AntiAbuseState Ip := ⟨listener.guard, listener.tickets⟩

end Listener

/-- The call of the guard that a step makes. -/
def ListenerStep.call (listener : Listener Ip) : ListenerStep Ip → Option (AntiAbuseStep Ip)
  | .accept (some ip) now => if listener.accepting then some (.accept ip now) else none
  | .line conn now =>
      (listener.peers[conn]?).bind fun peer => peer.metered.map fun _ => .consume peer.ip now
  | .finish conn =>
      (listener.peers[conn]?).bind fun peer =>
        if peer.phase = .reported then some (.drop peer.ip) else none
  | _ => none

namespace Listener

variable [DecidableEq Ip] {config : AntiAbuseConfig} {serde : SerdeJson} {listener : Listener Ip}

omit [DecidableEq Ip] in
theorem tickets_modify {conn : Nat} {move : Peer Ip → Peer Ip}
    (carries : ∀ peer, listener.peers[conn]? = some peer → peer.Carries (move peer)) :
    (listener.modify conn move).tickets = listener.tickets :=
  filterMap_modify fun peer found => (carries peer found).ticket

/-- The guard and its tickets after a step are what its call leaves. -/
structure Called (config : AntiAbuseConfig) (listener after : Listener Ip)
    (call : Option (AntiAbuseStep Ip)) : Prop where
  guard : after.guard = (call.elim listener.abuse (listener.abuse.step config)).guard
  tickets : (call.elim listener.abuse (listener.abuse.step config)).tickets.Perm after.tickets

theorem called_modify {conn : Nat} {move : Peer Ip → Peer Ip}
    (carries : ∀ peer, listener.peers[conn]? = some peer → peer.Carries (move peer)) :
    Called config listener (listener.modify conn move) none :=
  ⟨rfl, .of_eq (tickets_modify carries).symm⟩

theorem called_accept (ip : Ip) (now : ℚ) :
    Called config listener (listener.accept config ip now) (some (.accept ip now)) := by
  cases accepts : listener.guard.tryAcceptConnection config ip now with
  | mk outcome guard =>
      cases outcome with
      | error rejection => constructor <;> simp [accept, AntiAbuseState.step, abuse, accepts, tickets]
      | ok granted =>
          constructor
          · simp [accept, AntiAbuseState.step, abuse, accepts]
          · have last : (Peer.new ip now).ticket = some ip := rfl
            simp only [accept, Option.elim_some, AntiAbuseState.step, abuse, accepts, tickets,
              List.filterMap_append, List.filterMap_cons, last, List.filterMap_nil]
            exact (List.perm_append_singleton ip _).symm

theorem called_line (conn : Nat) (now : ℚ) :
    Called config listener (listener.line config serde conn now)
      ((ListenerStep.line conn now).call listener) := by
  simp only [line, ListenerStep.call]
  cases found : listener.peers[conn]? with
  | none => exact ⟨rfl, .refl _⟩
  | some peer =>
      simp only [Option.bind_some]
      cases metered : peer.metered with
      | none => exact called_modify fun other _ => other.carries_skim
      | some line =>
          refine ⟨rfl, .of_eq (filterMap_modify fun other same => ?_).symm⟩
          obtain rfl : peer = other := Option.some.inj (found.symm.trans same)
          exact (Peer.carries_dispatch serde (Peer.metered_phase metered) _ _ _).ticket

theorem called_report (conn : Nat) : Called config listener (listener.report conn) none := by
  unfold report
  cases found : listener.peers[conn]? with
  | none => exact ⟨rfl, .refl _⟩
  | some peer =>
      dsimp only
      split
      next leaving =>
        refine ⟨rfl, .of_eq (filterMap_modify fun other same => ?_).symm⟩
        obtain rfl : peer = other := Option.some.inj (found.symm.trans same)
        simp [Peer.ticket, Peer.report, leaving, Peer.disconnect]
      next => exact ⟨rfl, .refl _⟩

theorem called_finish (conn : Nat) :
    Called config listener (listener.finish conn)
      ((ListenerStep.finish conn).call listener) := by
  simp only [finish, ListenerStep.call]
  cases found : listener.peers[conn]? with
  | none => exact ⟨rfl, .refl _⟩
  | some peer =>
      by_cases reported : peer.phase = .reported
      · have holds : peer.ticket = some peer.ip := by simp [Peer.ticket, reported]
        have gives : peer.finish.ticket = none := by simp [Peer.ticket, Peer.finish, reported]
        have split := perm_filterMap_modify found holds gives
        have member : peer.ip ∈ listener.tickets := split.mem_iff.mpr List.mem_cons_self
        simp only [Option.bind_some, if_pos reported]
        constructor
        · simp only [Option.elim_some, AntiAbuseState.step, abuse, if_pos member]
        · simp only [Option.elim_some, AntiAbuseState.step, abuse, if_pos member]
          exact (split.erase peer.ip).trans (.of_eq (List.erase_cons_head ..))
      · simp only [Option.bind_some, if_neg reported]
        exact ⟨rfl, .refl _⟩

theorem called_step (step : ListenerStep Ip) :
    Called config listener (listener.step config serde step) (step.call listener) := by
  cases step with
  | accept source now =>
      cases source with
      | none => exact ⟨rfl, .refl _⟩
      | some ip =>
          simp only [Listener.step, ListenerStep.call]
          split
          · exact called_accept ip now
          · exact ⟨rfl, .refl _⟩
  | stopAccepting => exact ⟨rfl, .refl _⟩
  | begin conn => exact called_modify fun peer _ => peer.carries_begin
  | receive conn chunk now => exact called_modify fun peer _ => peer.carries_receive chunk now
  | hangUp conn => exact called_modify fun peer _ => peer.carries_hangUp
  | timeOut conn authorized now =>
      exact called_modify fun peer _ => peer.carries_timeOut authorized now
  | line conn now => exact called_line conn now
  | resume conn => exact called_modify fun peer _ => peer.carries_resume
  | disconnect conn => exact called_modify fun peer _ => peer.carries_disconnect
  | report conn => exact called_report conn
  | finish conn => exact called_finish conn
  | collect =>
      simp only [Listener.step, collect]
      split <;> exact ⟨rfl, .refl _⟩
  | stopCollecting => exact ⟨rfl, .refl _⟩

theorem consistent_step (valid : config.Valid)
    (consistent : listener.abuse.Consistent config) (step : ListenerStep Ip) :
    (listener.step config serde step).abuse.Consistent config := by
  obtain ⟨guard, tickets⟩ := @called_step _ _ config serde listener step
  have called : AntiAbuseState.Consistent config
      ((step.call listener).elim listener.abuse (listener.abuse.step config)) := by
    cases step.call listener with
    | none => exact consistent
    | some call =>
        cases call with
        | accept ip now => exact consistent.accept valid ip now
        | drop ip => exact consistent.drop ip
        | consume ip now => exact consistent.consume ip now
  rw [abuse, guard]
  exact called.recount tickets

theorem run_snoc (steps : List (ListenerStep Ip)) (last : ListenerStep Ip) :
    run config serde (steps ++ [last]) = (run config serde steps).step config serde last := by
  rw [run, List.foldl_append]
  rfl

theorem consistent_run (valid : config.Valid) (steps : List (ListenerStep Ip)) :
    (run config serde steps).abuse.Consistent config := by
  induction steps using List.reverseRecOn with
  | nil => exact AntiAbuseState.consistent_initial
  | append_singleton steps last ih =>
      rw [run_snoc]
      exact consistent_step valid ih last

/-! ## Departures -/

/-- The task of a connection has reported its end. -/
def endedAt (listener : Listener Ip) (conn : Nat) : Bool :=
  listener.peers[conn]?.any fun peer => peer.phase.ended

/-- The listener is told of every connection that ended, once, and not of others. -/
structure Departures (listener : Listener Ip) : Prop where
  counted : listener.disconnects = listener.closed.length
  once : (listener.closed ++ listener.reports).Nodup
  told : ∀ conn ∈ listener.closed ++ listener.reports, listener.endedAt conn = true
  heard : listener.collecting = true → ∀ conn, listener.endedAt conn = true →
    conn ∈ listener.closed ++ listener.reports
  cut : ∀ (conn : Nat) (peer : Peer Ip), listener.peers[conn]? = some peer →
    peer.phase.ended = true → peer.loop.connected = false

section Departures

variable {after : Listener Ip}

omit [DecidableEq Ip] in
theorem endedAt_modify {conn : Nat} {move : Peer Ip → Peer Ip}
    (carries : ∀ peer, listener.peers[conn]? = some peer →
      (move peer).phase.ended = peer.phase.ended) (other : Nat) :
    (listener.modify conn move).endedAt other = listener.endedAt other := by
  simp only [endedAt, modify, List.getElem?_modify]
  split
  next same =>
    subst same
    cases found : listener.peers[conn]? with
    | none => rfl
    | some peer => exact carries peer found
  next => simp

omit [DecidableEq Ip] in
/-- What is told stays as it is when no task reports. -/
theorem Departures.keep (departures : Departures listener)
    (ended : ∀ conn, after.endedAt conn = listener.endedAt conn)
    (cut : ∀ (conn : Nat) (peer : Peer Ip), after.peers[conn]? = some peer →
      peer.phase.ended = true → peer.loop.connected = false)
    (counted : after.disconnects = after.closed.length)
    (told : after.closed ++ after.reports = listener.closed ++ listener.reports)
    (collecting : after.collecting = listener.collecting) : Departures after where
  counted := counted
  once := told ▸ departures.once
  told := by
    intro conn member
    rw [ended]
    exact departures.told conn (told ▸ member)
  heard := by
    intro hears conn departed
    rw [told]
    exact departures.heard (collecting ▸ hears) conn (ended conn ▸ departed)
  cut := cut

omit [DecidableEq Ip] in
theorem Departures.modify (departures : Departures listener) {conn : Nat}
    {move : Peer Ip → Peer Ip}
    (carries : ∀ peer, listener.peers[conn]? = some peer → peer.Carries (move peer)) :
    Departures (listener.modify conn move) := by
  refine departures.keep (endedAt_modify fun peer found => (carries peer found).ended) ?_
    departures.counted rfl rfl
  intro other peer found departed
  simp only [Listener.modify, List.getElem?_modify] at found
  split at found
  next same =>
    subst same
    obtain ⟨earlier, known, rfl⟩ := Option.map_eq_some_iff.mp found
    have moved := carries earlier known
    have closed := departures.cut conn earlier known (moved.ended ▸ departed)
    exact Bool.eq_false_iff.mpr fun connected =>
      Bool.false_ne_true (closed.symm.trans (moved.cut connected))
  next => exact departures.cut other peer (by simpa using found) departed

theorem Departures.accept (departures : Departures listener) (ip : Ip) (now : ℚ) :
    Departures (listener.accept config ip now) := by
  have fresh : (Peer.new ip now).phase.ended = false := rfl
  unfold Listener.accept
  split
  · refine departures.keep (fun conn => ?_) (fun conn peer found departed => ?_) departures.counted
      rfl rfl
    · simp only [endedAt, List.getElem?_append]
      split
      · rfl
      next beyond =>
        rw [List.getElem?_eq_none (Nat.le_of_not_lt beyond)]
        cases conn - listener.peers.length <;> simp [fresh]
    · simp only [List.getElem?_append] at found
      split at found
      · exact departures.cut conn peer found departed
      · obtain rfl := List.mem_singleton.mp (List.mem_of_getElem? found)
        exact nomatch fresh.symm.trans departed
  · exact departures.keep (fun _ => rfl) departures.cut departures.counted rfl rfl

theorem Departures.line (departures : Departures listener) (conn : Nat) (now : ℚ) :
    Departures (listener.line config serde conn now) := by
  unfold Listener.line
  cases found : listener.peers[conn]? with
  | none => exact departures
  | some peer =>
      dsimp only
      cases metered : peer.metered with
      | none => exact departures.modify fun other _ => other.carries_skim
      | some line =>
          have moved : Departures (listener.modify conn fun other => other.dispatch serde line.1 line.2
              (listener.guard.tryConsumeFrame config peer.ip now).1) := by
            refine departures.modify fun other same => ?_
            obtain rfl : peer = other := Option.some.inj (found.symm.trans same)
            exact Peer.carries_dispatch serde (Peer.metered_phase metered) _ _ _
          exact moved.keep (fun _ => rfl) moved.cut moved.counted rfl rfl

omit [DecidableEq Ip] in
/-- A report is the first of its connection. -/
theorem Departures.report (departures : Departures listener) (conn : Nat) :
    Departures (listener.report conn) := by
  unfold Listener.report
  cases found : listener.peers[conn]? with
  | none => exact departures
  | some peer =>
      dsimp only
      split
      next leaving =>
        have running : listener.endedAt conn = false := by
          simp [endedAt, found, leaving, Phase.ended]
        have unheard : conn ∉ listener.closed ++ listener.reports := fun member =>
          Bool.false_ne_true (running.symm.trans (departures.told conn member))
        have ended : ∀ other, (listener.modify conn Peer.report).endedAt other =
            (decide (other = conn) || listener.endedAt other) := by
          intro other
          simp only [endedAt, Listener.modify, List.getElem?_modify]
          by_cases same : conn = other
          · subst same
            simp [found, Peer.report, leaving, Phase.ended]
          · simp [same, Ne.symm same]
        constructor
        · exact departures.counted
        · dsimp only
          split
          · rw [← List.append_assoc]
            exact List.nodup_append.mpr ⟨departures.once, List.nodup_singleton conn,
              fun first member last same => by
                rintro rfl
                exact unheard (List.mem_singleton.mp same ▸ member)⟩
          · exact departures.once
        · intro other member
          refine (ended other).trans ?_
          dsimp only at member
          split at member
          · rw [← List.append_assoc] at member
            obtain earlier | last := List.mem_append.mp member
            · simp [departures.told other earlier]
            · simp [List.mem_singleton.mp last]
          · simp [departures.told other member]
        · intro hears other departed
          replace departed := (ended other).symm.trans departed
          replace hears : listener.collecting = true := hears
          dsimp only
          rw [if_pos hears, ← List.append_assoc]
          obtain same | earlier := (Bool.or_eq_true _ _).mp departed
          · exact List.mem_append_right _ (List.mem_singleton.mpr (of_decide_eq_true same))
          · exact List.mem_append_left _ (departures.heard hears other earlier)
        · intro other later known departed
          simp only [Listener.modify, List.getElem?_modify] at known
          split at known
          next same =>
            subst same
            obtain ⟨earlier, here, rfl⟩ := Option.map_eq_some_iff.mp known
            obtain rfl : peer = earlier := Option.some.inj (found.symm.trans here)
            simp [Peer.report, leaving, Peer.disconnect]
          next => exact departures.cut other later (by simpa using known) departed
      next => exact departures

theorem Departures.finish (departures : Departures listener) (conn : Nat) :
    Departures (listener.finish conn) := by
  have ended : ∀ peer : Peer Ip, peer.finish.phase.ended = peer.phase.ended := by
    intro peer
    unfold Peer.finish
    split
    next reported => simp [reported, Phase.ended]
    next => rfl
  have loop : ∀ peer : Peer Ip, peer.finish.loop = peer.loop := by
    intro peer
    unfold Peer.finish
    split <;> rfl
  unfold Listener.finish
  split
  · exact departures
  · split
    · refine departures.keep (endedAt_modify fun peer _ => ended peer) ?_ departures.counted rfl rfl
      intro other peer found departed
      simp only [Listener.modify, List.getElem?_modify] at found
      split at found
      next same =>
        subst same
        obtain ⟨earlier, known, rfl⟩ := Option.map_eq_some_iff.mp found
        rw [loop]
        exact departures.cut conn earlier known (ended earlier ▸ departed)
      next => exact departures.cut other peer (by simpa using found) departed
    · exact departures

omit [DecidableEq Ip] in
theorem Departures.collect (departures : Departures listener) : Departures listener.collect := by
  unfold Listener.collect
  split
  · exact departures
  next conn reports waiting =>
    refine departures.keep (fun _ => rfl) departures.cut ?_ ?_ rfl
    · simp [departures.counted]
    · simp [waiting]

omit [DecidableEq Ip] in
/-- Reports that nobody takes are lost. -/
theorem Departures.stopCollecting (departures : Departures listener) :
    Departures { listener with collecting := false, reports := [] } where
  counted := departures.counted
  once := by
    rw [List.append_nil]
    exact (List.nodup_append.mp departures.once).1
  told := by
    intro conn member
    rw [List.append_nil] at member
    exact departures.told conn (List.mem_append_left _ member)
  heard := nofun
  cut := departures.cut

theorem Departures.step (departures : Departures listener) (step : ListenerStep Ip) :
    Departures (listener.step config serde step) := by
  cases step with
  | accept source now =>
      cases source with
      | none => exact departures
      | some ip =>
          simp only [Listener.step]
          split
          · exact departures.accept ip now
          · exact departures
  | stopAccepting => exact departures.keep (fun _ => rfl) departures.cut departures.counted rfl rfl
  | begin conn => exact departures.modify fun peer _ => peer.carries_begin
  | receive conn chunk now => exact departures.modify fun peer _ => peer.carries_receive chunk now
  | hangUp conn => exact departures.modify fun peer _ => peer.carries_hangUp
  | timeOut conn authorized now =>
      exact departures.modify fun peer _ => peer.carries_timeOut authorized now
  | line conn now => exact departures.line conn now
  | resume conn => exact departures.modify fun peer _ => peer.carries_resume
  | disconnect conn => exact departures.modify fun peer _ => peer.carries_disconnect
  | report conn => exact departures.report conn
  | finish conn => exact departures.finish conn
  | collect => exact departures.collect
  | stopCollecting => exact departures.stopCollecting

theorem departures_run (steps : List (ListenerStep Ip)) :
    Departures (run config serde steps) := by
  induction steps using List.reverseRecOn with
  | nil => exact ⟨rfl, .nil, nofun, fun _ _ => nofun, fun _ _ => nofun⟩
  | append_singleton steps last ih =>
      rw [run_snoc]
      exact ih.step last

end Departures

theorem count_tickets (ip : Ip) : listener.tickets.count ip =
    listener.peers.countP fun peer => decide (peer.ip = ip ∧ peer.phase ≠ .over) := by
  rw [tickets, List.count, List.countP_filterMap]
  refine List.countP_congr fun peer _ => ?_
  unfold Peer.ticket
  split
  next departed => simp [departed]
  next running => simp [running]

/-- **Connections.** However the tasks of the listener interleave: the guard counts, for every
address, exactly the connections whose task still runs, and never more than the cap; the
disconnect handler runs at most once for a connection, after its task has left its loop and its
context is disconnected; and while the disconnect loop runs, no connection that ended is
forgotten. -/
theorem connections_accounted {maxConnPerIp maxTrackedIps : Nat}
    {frameRatePerSec frameBurst : Float64} {config : AntiAbuseConfig}
    (built : AntiAbuseConfig.new maxConnPerIp maxTrackedIps frameRatePerSec frameBurst = .ok config)
    (serde : SerdeJson) (steps : List (ListenerStep Ip)) :
    let listener := run config serde steps
    (∀ ip, listener.guard.connCount ip =
      listener.peers.countP fun peer => decide (peer.ip = ip ∧ peer.phase ≠ .over)) ∧
    (∀ ip, listener.guard.connCount ip ≤ config.maxConnPerIp) ∧
    listener.closed.Nodup ∧ listener.disconnects = listener.closed.length ∧
    (∀ conn ∈ listener.closed, ∃ peer, listener.peers[conn]? = some peer ∧
      peer.phase.ended = true ∧ peer.loop.connected = false) ∧
    (listener.collecting = true → ∀ conn peer, listener.peers[conn]? = some peer →
      peer.phase.ended = true → conn ∈ listener.closed ∨ conn ∈ listener.reports) := by
  have valid := AntiAbuseConfig.valid_of_new built
  have consistent := @consistent_run _ _ config serde valid steps
  have departures := @departures_run _ _ config serde steps
  refine ⟨fun ip => ?_, consistent.capped, ?_, departures.counted, fun conn member => ?_,
    fun hears conn peer found departed => ?_⟩
  · rw [← count_tickets]
    exact consistent.counted ip
  · exact (List.nodup_append.mp departures.once).1
  · have ended := departures.told conn (List.mem_append_left _ member)
    obtain ⟨peer, found, departed⟩ := (Option.any_eq_true ..).mp ended
    exact ⟨peer, found, departed, departures.cut conn peer found departed⟩
  · refine List.mem_append.mp (departures.heard hears conn ?_)
    simpa [endedAt, found] using departed

end Listener

namespace Sample

/-- A parser that takes no line. -/
def deaf : SerdeJson := ⟨fun _ => none, fun _ => .error []⟩

/-- Two connections of an address, one of which hangs up; a third is refused before that. -/
def visits : List (ListenerStep Nat) :=
  [.accept (some 7) 0, .accept (some 7) 0, .accept (some 7) 1, .begin 0, .hangUp 0, .report 0,
    .finish 0, .collect]

theorem connections_accounted_sample :
    (Listener.run ⟨2, 1, 1, 1⟩ deaf visits).guard.connCount 7 = 1 ∧
      (Listener.run ⟨2, 1, 1, 1⟩ deaf visits).closed = [0] := by
  have accounted := @Listener.connections_accounted Nat _ 2 1 (.finite 1) (.finite 1) ⟨2, 1, 1, 1⟩
    (by decide +kernel) deaf visits
  exact ⟨(accounted.1 7).trans (by decide +kernel), by decide +kernel⟩

end Sample

end StratumBridge
