import StratumBridge.Bridge.PublicationProtocol
import StratumBridge.Interaction.Counter

/-! # Lane tags

Every connection is accepted under a session number of its own, and every template
request of a connection draws a generation of its own. The tag of a request spells out
both numbers, so no two requests of a process ask the ZKas node under one tag.
-/

namespace StratumBridge

open Interaction

section Model

variable [Platform] {deployment : Deployment}

/-! ## The encoding -/

omit [Platform] in
/-- Distinct ASCII texts are distinct byte strings. -/
theorem textBytes_injOn : Set.InjOn textBytes {text | ∀ char ∈ text, char.toNat < 128} := by
  intro first firstAscii second secondAscii same
  induction first generalizing second with
  | nil => exact (List.map_eq_nil_iff.mp same.symm).symm
  | cons char rest ih =>
      cases second with
      | nil => exact nomatch same
      | cons other others =>
          obtain ⟨bytes, tail⟩ := List.cons.inj same
          have below := firstAscii char List.mem_cons_self
          have otherBelow := secondAscii other List.mem_cons_self
          have codes := congrArg BitVec.toNat bytes
          simp only [BitVec.toNat_ofNat] at codes
          rw [Nat.mod_eq_of_lt (by omega), Nat.mod_eq_of_lt (by omega)] at codes
          have sameChar : char = other := Char.ext (UInt32.toNat_inj.mp codes)
          rw [sameChar, ih (fun next member => firstAscii next (List.mem_cons_of_mem _ member))
            (fun next member => secondAscii next (List.mem_cons_of_mem _ member)) tail]

omit [Platform] in
/-- The bytes of a 64-bit number in hexadecimal determine it. -/
theorem hex16_bytes_injective {first second : Nat} (small : first < 2 ^ 64)
    (otherSmall : second < 2 ^ 64)
    (same : textBytes (Text.hex16 first) = textBytes (Text.hex16 second)) : first = second := by
  have read := Text.readDigits_hex16 small
  have otherRead := Text.readDigits_hex16 otherSmall
  have sameText := textBytes_injOn (Text.ascii_of_readDigits read)
    (Text.ascii_of_readDigits otherRead) same
  rw [sameText, otherRead] at read
  exact (Option.some.inj read).symm

/-- The pairs of 64-bit numbers. -/
def wordPairs : Set (Nat × Nat) := {pair | pair.1 < 2 ^ 64 ∧ pair.2 < 2 ^ 64}

omit [Platform] in
/-- **The tag determines session and generation.** -/
theorem buildLaneCoinbaseTag_injOn (base : List Byte) :
    Set.InjOn (fun request : Nat × Nat => buildLaneCoinbaseTag base request.1 request.2)
      wordPairs := by
  rintro ⟨uid, generation⟩ ⟨uidSmall, generationSmall⟩ ⟨other, later⟩ ⟨otherSmall, laterSmall⟩ same
  have tails := List.append_cancel_left same
  simp only [textBytes, List.map_append, List.append_assoc] at tails
  obtain ⟨-, afterMark⟩ := List.append_inj tails rfl
  obtain ⟨uids, afterUid⟩ := List.append_inj afterMark
    (by rw [List.length_map, List.length_map, Text.length_hex16, Text.length_hex16])
  obtain ⟨-, generations⟩ := List.append_inj afterUid rfl
  exact Prod.ext (hex16_bytes_injective uidSmall otherSmall uids)
    (hex16_bytes_injective generationSmall laterSmall generations)

/-! ## The counters -/

/-- The session number an operation draws. -/
def sessionDraw : (op : BridgeOp) → op.Answer → Option Nat
  | .newSessionUid, uid => some uid
  | _, _ => none

/-- The template request an operation opens: the connection and the generation drawn. -/
def templateRequest : (op : BridgeOp) → op.Answer → Option (Nat × Nat)
  | .context uid .nextTemplateGeneration, generation => some (uid, generation)
  | _, _ => none

/-- The generation an operation draws on one connection. -/
def generationDraw (uid : Nat) : (op : BridgeOp) → op.Answer → Option Nat
  | .context other .nextTemplateGeneration, generation =>
      if other = uid then some generation else none
  | _, _ => none

/-- The operation behind a draw. -/
theorem generationDraw_eq_some {uid : Nat} {op : BridgeOp} {answer : op.Answer} {generation : Nat}
    (drawn : generationDraw uid op answer = some generation) :
    op = .context uid .nextTemplateGeneration := by
  cases op with
  | context other op =>
      cases op with
      | nextTemplateGeneration =>
          obtain ⟨rfl, -⟩ := Option.ite_none_right_eq_some.mp drawn
          rfl
      | _ => exact nomatch drawn
  | _ => exact nomatch drawn

theorem sessionCounter : @System.Counter (bridge deployment) Nat
    (fun state : BridgeState => state.nextSessionUid) (fun held => (held + 1) % 2 ^ 64)
    sessionDraw where
  drawn := by
    intro op state env answer after item performed chosen
    cases op with
    | newSessionUid =>
        cases performed
        exact ⟨(Option.some.inj chosen).symm, rfl⟩
    | _ => exact nomatch chosen
  kept := by
    intro op state env answer after performed chosen
    refine (performOp_sessionUid performed).trans ?_
    cases op with
    | newSessionUid => exact nomatch chosen
    | _ => rfl

/-- The next generation of a connection. -/
def nextGeneration (uid : Nat) (state : BridgeState) : Nat :=
  ((state.contexts uid).templateGeneration + 1) % 2 ^ 64

theorem generationCounter (uid : Nat) : @System.Counter (bridge deployment) Nat
    (nextGeneration uid) (fun held => (held + 1) % 2 ^ 64) (generationDraw uid) where
  drawn := by
    intro op state env answer after item performed chosen
    change performOp state env op = some (answer, after) at performed
    cases op with
    | context other op =>
        cases op with
        | nextTemplateGeneration =>
            obtain ⟨rfl, drew⟩ := Option.ite_none_right_eq_some.mp chosen
            have moved : (after.contexts other).templateGeneration = nextGeneration other state :=
              (performOp_templateGeneration performed).trans (if_pos rfl)
            cases performed
            exact ⟨(Option.some.inj drew).symm, congrArg (fun generation => (generation + 1) % 2 ^ 64) moved⟩
        | _ => exact nomatch chosen
    | _ => exact nomatch chosen
  kept := by
    intro op state env answer after performed chosen
    refine congrArg (fun generation => (generation + 1) % 2 ^ 64) ?_
    refine (@performOp_templateGeneration _ state after env op answer uid performed).trans ?_
    cases op with
    | context other op =>
        cases op with
        | nextTemplateGeneration =>
            by_cases same : other = uid
            · simp only [generationDraw, if_pos same, reduceCtorEq] at chosen
            · exact if_neg same
        | _ => rfl
    | _ => rfl

/-! ## Requests of a run -/

/-- The template request of a task: it drew the generation on the connection. -/
def RequestedAs (log : Record deployment) (thread uid generation : Nat) : Prop :=
  .did thread (.context uid .nextTemplateGeneration) generation ∈ log

/-- The task asked the ZKas node for a template under the tag. -/
def AskedUnder (log : Record deployment) (thread : Nat) (tag : List Byte) : Prop :=
  ∃ recipient reply, .did thread (.zkasTemplate recipient tag) reply ∈ log

theorem requestedAs_of_mem {log : Record deployment} {thread uid generation : Nat}
    (member : (thread, uid, generation) ∈ System.callsBy templateRequest log) :
    RequestedAs log thread uid generation := by
  obtain ⟨op, answer, inLog, chosen⟩ := System.mem_ownCalls.mp (System.mem_callsBy.mp member)
  unfold templateRequest at chosen
  split at chosen
  · cases chosen
    exact inLog
  · exact nomatch chosen

theorem mem_templateRequests {log : Record deployment} {uid generation : Nat} :
    (uid, generation) ∈ System.callsOf templateRequest log ↔
      ∃ thread, RequestedAs log thread uid generation := by
  rw [System.mem_callsOf]
  constructor
  · rintro ⟨thread, op, answer, member, chosen⟩
    refine ⟨thread, requestedAs_of_mem (System.mem_callsBy.mpr (System.mem_ownCalls.mpr ?_))⟩
    exact ⟨op, answer, member, chosen⟩
  · rintro ⟨thread, member⟩
    exact ⟨thread, _, _, member, rfl⟩

/-- The generations drawn on one connection are those among all requests. -/
theorem callsOf_generationDraw (uid : Nat) (log : Record deployment) :
    System.callsOf (generationDraw uid) log = (System.callsOf templateRequest log).filterMap
      fun request => if request.1 = uid then some request.2 else none := by
  rw [System.callsOf, System.callsOf, List.filterMap_filterMap]
  refine congrArg (List.filterMap · log) (funext fun entry => ?_)
  cases entry with
  | did thread op answer =>
      cases op with
      | context other op => cases op <;> rfl
      | _ => rfl
  | _ => rfl

/-- No connection draws a generation twice. -/
theorem nodup_templateRequests (events : List (bridge deployment).Event)
    (requests : (System.callsOf templateRequest (System.execute events).log).length < 2 ^ 64) :
    (System.callsOf templateRequest (System.execute events).log).Nodup := by
  refine List.nodup_iff_sublist.mpr ?_
  rintro ⟨uid, generation⟩ twice
  have drawn := twice.filterMap fun request : Nat × Nat =>
    if request.1 = uid then some request.2 else none
  rw [← callsOf_generationDraw] at drawn
  have fewer : (System.callsOf (generationDraw uid) (System.execute events).log).length ≤ 2 ^ 64 := by
    rw [callsOf_generationDraw]
    exact (List.length_filterMap_le _ _).trans (Nat.le_of_lt requests)
  have distinct := (generationCounter uid).nodup_draws events
    (System.injOn_succ_mod (Nat.mod_lt _ (by decide)) fewer)
  simp only [List.filterMap_cons, List.filterMap_nil, if_true] at drawn
  exact List.nodup_iff_sublist.mp distinct generation drawn

theorem nodup_sessions (events : List (bridge deployment).Event)
    (openings : (System.callsOf sessionDraw (System.execute events).log).length < 2 ^ 64) :
    (System.callsOf sessionDraw (System.execute events).log).Nodup :=
  sessionCounter.nodup_draws events
    (System.injOn_succ_mod (show 1 < 2 ^ 64 by decide) (Nat.le_of_lt openings))

/-- Session numbers and generations are 64-bit. -/
theorem session_small {events : List (bridge deployment).Event} {uid : Nat}
    (accepted : uid ∈ System.callsOf sessionDraw (System.execute events).log) : uid < 2 ^ 64 := by
  rw [sessionCounter.callsOf_draws events] at accepted
  obtain ⟨count, -, rfl⟩ := List.mem_iterate.mp accepted
  exact (System.iterate_succ_mod (show 1 < 2 ^ 64 by decide) count).trans_lt
    (Nat.mod_lt _ (by decide))

theorem generation_small {events : List (bridge deployment).Event} {thread uid generation : Nat}
    (requested : RequestedAs (System.execute events).log thread uid generation) :
    generation < 2 ^ 64 := by
  have drawn : generation ∈ System.callsOf (generationDraw uid) (System.execute events).log :=
    System.mem_callsOf.mpr ⟨thread, _, _, requested, if_pos rfl⟩
  rw [(generationCounter uid).callsOf_draws events] at drawn
  obtain ⟨count, -, same⟩ := List.mem_iterate.mp drawn
  rw [same, System.iterate_succ_mod (show nextGeneration uid _ < 2 ^ 64 from
    Nat.mod_lt _ (by decide))]
  exact Nat.mod_lt _ (by decide)

/-- A call recorded for a task is in the log. -/
theorem requestedAs_of_drew {log : Record deployment} {thread uid generation : Nat}
    (member : PublishCall.drew uid generation ∈ System.ownCalls publishCall thread log) :
    RequestedAs log thread uid generation := by
  obtain ⟨op, answer, inLog, chosen⟩ := System.mem_ownCalls.mp member
  cases publishCall_cases chosen
  exact inLog

/-- A task asks for templates under the tag of its own request. -/
theorem AskedUnder.requested {events : List (bridge deployment).Event} {thread : Nat}
    {tag : List Byte} (asked : AskedUnder (System.execute events).log thread tag) :
    ∃ uid generation, RequestedAs (System.execute events).log thread uid generation ∧
      tag = buildLaneCoinbaseTag deployment.settings.coinbaseTag uid generation := by
  obtain ⟨recipient, reply, member⟩ := asked
  obtain ⟨front, back, split⟩ := List.append_of_mem member
  obtain ⟨request, -, permitted⟩ := (publications_execute events).calls front thread
    (.zkasTemplate recipient tag) reply back split
  obtain ⟨uid, generation, before, same⟩ := permitted
  have drew : PublishCall.drew uid generation ∈ System.ownCalls publishCall thread front := by
    rw [before]
    exact List.mem_cons_of_mem _ List.mem_cons_self
  refine ⟨uid, generation, ?_, same⟩
  rw [split]
  exact List.mem_append_left _ (requestedAs_of_drew drew)

/-- A task makes one template request. -/
theorem RequestedAs.unique {events : List (bridge deployment).Event} {thread uid generation other
    later : Nat} (requested : RequestedAs (System.execute events).log thread uid generation)
    (again : RequestedAs (System.execute events).log thread other later) :
    uid = other ∧ generation = later := by
  have ordered : ∀ {uid generation other later : Nat} {before between after : Record deployment},
      (System.execute events).log = before ++ .did thread (.context uid .nextTemplateGeneration)
        generation :: (between ++ .did thread (.context other .nextTemplateGeneration) later ::
          after) → False := by
    intro uid generation other later before between after split
    rw [← List.cons_append, ← List.append_assoc] at split
    obtain ⟨request, -, permitted⟩ := (publications_execute events).calls _ thread
      (.context other .nextTemplateGeneration) later after split
    have drew : PublishCall.drew uid generation ∈ System.ownCalls publishCall thread
        (before ++ .did thread (.context uid .nextTemplateGeneration) generation :: between) :=
      System.mem_ownCalls.mpr ⟨_, _, List.mem_append_right _ List.mem_cons_self, rfl⟩
    rw [show _ = [PublishCall.locked other] from permitted] at drew
    exact nomatch List.mem_singleton.mp drew
  rcases System.order_of_mem requested again with same | ⟨before, between, after, split⟩ |
      ⟨before, between, after, split⟩
  · cases same
    exact ⟨rfl, rfl⟩
  · exact (ordered split).elim
  · exact (ordered split).elim

/-- **Lane uniqueness.** The tag encodes session and generation injectively; while fewer
than `2 ^ 64` connections were accepted and fewer than `2 ^ 64` templates requested, no two
connections share a session number and no two requests share a generation on a connection;
every template is asked for under the tag of its task's request; and requests under one
tag are the same request. -/
theorem laneTags_unique (events : List (bridge deployment).Event)
    (openings : (System.callsOf sessionDraw (System.execute events).log).length < 2 ^ 64)
    (requests : (System.callsOf templateRequest (System.execute events).log).length < 2 ^ 64)
    (opened : ∀ request ∈ System.callsOf templateRequest (System.execute events).log,
      request.1 ∈ System.callsOf sessionDraw (System.execute events).log) :
    (∀ base, Set.InjOn (fun request : Nat × Nat => buildLaneCoinbaseTag base request.1 request.2)
      wordPairs) ∧
    (System.callsOf sessionDraw (System.execute events).log).Nodup ∧
    (System.callsOf templateRequest (System.execute events).log).Nodup ∧
    (∀ thread tag, AskedUnder (System.execute events).log thread tag →
      ∃ uid generation, RequestedAs (System.execute events).log thread uid generation ∧
        tag = buildLaneCoinbaseTag deployment.settings.coinbaseTag uid generation) ∧
    ∀ thread other uid generation otherUid otherGeneration tag,
      RequestedAs (System.execute events).log thread uid generation →
      RequestedAs (System.execute events).log other otherUid otherGeneration →
      AskedUnder (System.execute events).log thread tag →
      AskedUnder (System.execute events).log other tag →
        uid = otherUid ∧ generation = otherGeneration ∧ thread = other := by
  have distinct := nodup_templateRequests events requests
  refine ⟨buildLaneCoinbaseTag_injOn, nodup_sessions events openings, distinct,
    fun thread tag asked => asked.requested, ?_⟩
  intro thread other uid generation otherUid otherGeneration tag requested alsoRequested asked
    alsoAsked
  have tagged : ∀ {task session drawn : Nat},
      RequestedAs (System.execute events).log task session drawn →
      AskedUnder (System.execute events).log task tag →
        tag = buildLaneCoinbaseTag deployment.settings.coinbaseTag session drawn ∧
          (session, drawn) ∈ wordPairs := by
    intro task session drawn known asked
    obtain ⟨uid, generation, own, same⟩ := asked.requested
    obtain ⟨rfl, rfl⟩ := known.unique own
    have accepted := opened _ (mem_templateRequests.mpr ⟨task, known⟩)
    exact ⟨same, session_small accepted, generation_small known⟩
  obtain ⟨here, small⟩ := tagged requested asked
  obtain ⟨there, otherSmall⟩ := tagged alsoRequested alsoAsked
  have samePair := buildLaneCoinbaseTag_injOn _ small otherSmall (here.symm.trans there)
  obtain ⟨sameUid, sameGeneration⟩ := Prod.ext_iff.mp samePair
  dsimp only at sameUid sameGeneration
  subst sameUid sameGeneration
  have sameEntry := System.entry_eq_of_nodup distinct requested alsoRequested rfl rfl
  exact ⟨rfl, rfl, (System.Entry.did.inj sameEntry).1⟩

end Model

section Sample

attribute [local instance] Sample.platform

namespace Sample

/-- Two connections are accepted, and each gets a template. -/
def twoSessions : List (bridge (deployment none)).Event :=
  [.start .connect] ++ steps none 0 7 {} ++ [.start .connect] ++ steps none 1 7 {}
    ++ [.start (.newBlock 1)] ++ steps none 2 7 { template := .block easyBlock }
    ++ [.start (.newBlock 2)] ++ steps none 3 7 { template := .block easyBlock }

/-- The tag of a template request. -/
def askedTag : (op : BridgeOp) → op.Answer → Option (List Byte)
  | .zkasTemplate _ tag, _ => some tag
  | _, _ => none

theorem laneTags_unique_sample :
    (System.callsOf askedTag (System.execute twoSessions).log).length = 2 ∧
      RequestedAs (System.execute twoSessions).log 2 1 1 ∧
      RequestedAs (System.execute twoSessions).log 3 2 1 ∧
      ∀ tag, AskedUnder (System.execute twoSessions).log 2 tag →
        ¬ AskedUnder (System.execute twoSessions).log 3 tag := by
  have first : RequestedAs (System.execute twoSessions).log 2 1 1 :=
    requestedAs_of_mem (by decide +kernel)
  have second : RequestedAs (System.execute twoSessions).log 3 2 1 :=
    requestedAs_of_mem (by decide +kernel)
  refine ⟨by decide +kernel, first, second, fun tag asked alsoAsked => ?_⟩
  have unique := laneTags_unique twoSessions (by decide +kernel) (by decide +kernel)
    (by decide +kernel)
  have same := unique.2.2.2.2 2 3 1 1 2 1 tag first second asked alsoAsked
  exact absurd same.1 (by decide)

end Sample

end Sample

end StratumBridge
