import StratumBridge.Interaction.Counter
import StratumBridge.Interaction.Storage
import StratumBridge.Bridge.GuardProtocol
import StratumBridge.Bridge.HandshakeProtocol

/-! # Search spaces

A subscription draws the extranonce of its connection from one counter. It becomes the high
digits of every nonce the miner sends in short form, so miners with different extranonces
search different nonces.
-/

namespace StratumBridge

open Interaction

/-! ## Reading a nonce behind an extranonce -/

namespace Text

/-- Digits read onto a number fill the places below it. -/
theorem readDigits_bounds {radix : Nat} {text : List Char} {start value : Nat}
    (read : readDigits radix text start = some value) :
    start * radix ^ text.length ≤ value ∧ value < (start + 1) * radix ^ text.length := by
  induction text generalizing start with
  | nil =>
      cases read
      simp only [List.length_nil, pow_zero, Nat.mul_one]
      exact ⟨le_rfl, Nat.lt_succ_self _⟩
  | cons char rest ih =>
      rw [readDigits] at read
      cases found : digitValue radix char with
      | none =>
          rw [found] at read
          cases read
      | some digit =>
          rw [found] at read
          have small : digit < radix :=
            of_decide_eq_true (Option.filter_eq_some_iff.mp found).2
          obtain ⟨lower, upper⟩ := ih read
          have reach : (start * radix + digit + 1) ≤ (start + 1) * radix := by
            rw [Nat.add_mul, Nat.one_mul]
            omega
          rw [List.length_cons, pow_succ']
          constructor
          · calc start * (radix * radix ^ rest.length)
                = start * radix * radix ^ rest.length := (Nat.mul_assoc ..).symm
              _ ≤ (start * radix + digit) * radix ^ rest.length :=
                Nat.mul_le_mul_right _ (Nat.le_add_right _ _)
              _ ≤ value := lower
          · calc value < (start * radix + digit + 1) * radix ^ rest.length := upper
              _ ≤ (start + 1) * radix * radix ^ rest.length := Nat.mul_le_mul_right _ reach
              _ = (start + 1) * (radix * radix ^ rest.length) := Nat.mul_assoc ..

/-- A text that starts with digits is parsed as digits. -/
theorem readDigits_of_parseU64 {front back : List Char} {high value : Nat} (some : front ≠ [])
    (read : readDigits 16 front 0 = .some high)
    (parsed : parseU64 16 (front ++ back) = .some value) :
    readDigits 16 back high = .some value := by
  obtain ⟨char, rest, rfl⟩ := List.exists_cons_of_ne_nil some
  have digit : char ≠ '+' := by
    rintro rfl
    exact nomatch read
  rw [parseU64, if_neg (List.append_ne_nil_of_left_ne_nil some back)] at parsed
  · have whole := (Option.filter_eq_some_iff.mp parsed).1
    rwa [readDigits_append, read] at whole
  · exact fun _ same => digit (List.cons.inj same).1

theorem length_ofExtranonce {value : Nat} (small : value < 65536) :
    (ofExtranonce value).length = 4 := by
  have digits : (Nat.toDigits 16 value).length ≤ 4 :=
    (Nat.length_toDigits_le_iff (by decide) (by decide)).mpr small
  rw [ofExtranonce, padZeros, List.length_append, List.length_replicate]
  omega

theorem readDigits_ofExtranonce (value : Nat) :
    readDigits 16 (ofExtranonce value) 0 = some value :=
  readDigits_padZeros (by decide) (by decide) 4 value

theorem ofExtranonce_injective : Function.Injective ofExtranonce := by
  intro first second same
  have read := readDigits_ofExtranonce first
  rw [same, readDigits_ofExtranonce] at read
  exact (Option.some.inj read).symm

theorem ofExtranonce_ne_nil (value : Nat) : ofExtranonce value ≠ [] := by
  intro empty
  have digits := congrArg List.length empty
  rw [ofExtranonce, padZeros, List.length_append, List.length_replicate, List.length_nil] at digits
  have padded : (Nat.toDigits 16 value).length = 0 ∧ 4 - (Nat.toDigits 16 value).length = 0 := by
    omega
  omega

end Text

/-- The high sixteen bits of a short-form nonce are the extranonce. -/
theorem high_of_finalNonceText {assigned : Nat} (small : assigned < 65536) {nonceText : Text}
    (short : (Text.remove0x nonceText).length ≤ 12) {nonce : Nat}
    (parsed : Text.parseU64 16 (finalNonceText (Text.ofExtranonce assigned) nonceText) =
      some nonce) : nonce / 16 ^ 12 = assigned := by
  have length := Text.length_ofExtranonce small
  have padded : (Text.padZeros 12 (Text.remove0x nonceText)).length = 12 := by
    rw [Text.padZeros, List.length_append, List.length_replicate]
    omega
  have whole : finalNonceText (Text.ofExtranonce assigned) nonceText =
      Text.ofExtranonce assigned ++ Text.padZeros 12 (Text.remove0x nonceText) := by
    simp only [finalNonceText, Text.ofExtranonce_ne_nil, if_false, length]
    exact if_pos short
  rw [whole] at parsed
  have read := Text.readDigits_of_parseU64 (Text.ofExtranonce_ne_nil assigned)
    (Text.readDigits_ofExtranonce assigned) parsed
  obtain ⟨lower, upper⟩ := Text.readDigits_bounds read
  rw [padded] at lower upper
  exact Nat.div_eq_of_lt_le lower upper

section Model

variable [Platform] {deployment : Deployment}

/-! ## Assignments -/

/-- The extranonce value an operation draws. -/
def extranonceDraw : (op : BridgeOp) → op.Answer → Option Nat
  | .nextExtranonce, next => some next
  | _, _ => none

/-- The counter after a draw. -/
def advanceExtranonce (held : Nat) : Nat := if held < maxExtranonce then held + 1 else 0

theorem extranonceCounter : @System.Counter (bridge deployment) Nat
    (fun state : BridgeState => state.nextExtranonce) advanceExtranonce extranonceDraw where
  drawn := by
    intro op state env answer after item performed chosen
    cases op with
    | nextExtranonce =>
        cases performed
        exact ⟨(Option.some.inj chosen).symm, rfl⟩
    | _ => exact nomatch chosen
  kept := by
    intro op state env answer after performed chosen
    change performOp state env op = some (answer, after) at performed
    cases op with
    | nextExtranonce => exact nomatch chosen
    | context uid op | parent op =>
        obtain ⟨outcome, -, same⟩ := Option.map_eq_some_iff.mp performed
        cases same
        rfl
    | _ =>
        cases performed
        rfl

omit [Platform] in
/-- The counter goes round all two-byte values. -/
theorem iterate_advanceExtranonce (count : Nat) : advanceExtranonce^[count] 0 = count % 65536 := by
  induction count with
  | zero => rfl
  | succ count ih =>
      rw [Function.iterate_succ_apply', ih, advanceExtranonce, maxExtranonce]
      split <;> omega

/-- The extranonces assigned in a run, in order. -/
def assignments (log : Record deployment) : List Text :=
  (System.callsOf extranonceDraw log).map Text.ofExtranonce

theorem assignments_execute (events : List (bridge deployment).Event) :
    assignments (System.execute events).log =
      (List.range (assignments (System.execute events).log).length).map
        fun index => Text.ofExtranonce (index % 65536) := by
  have draws := extranonceCounter.callsOf_draws events
  rw [assignments, List.length_map]
  generalize (System.callsOf extranonceDraw (System.execute events).log).length = count at draws
  rw [draws, ← List.range_map_iterate, List.map_map]
  refine List.map_congr_left fun index _ => ?_
  exact congrArg Text.ofExtranonce (iterate_advanceExtranonce index)

/-- **Assignments.** Any 65536 consecutive assignments are distinct. -/
theorem nodup_assignments (events : List (bridge deployment).Event) (start : Nat) :
    (((assignments (System.execute events).log).drop start).take 65536).Nodup := by
  rw [assignments_execute events, ← List.map_drop, ← List.map_take]
  have window : ∀ index ∈ ((List.range (assignments (System.execute events).log).length).drop
      start).take 65536, start ≤ index ∧ index < start + 65536 := by
    intro index member
    obtain ⟨place, bound, rfl⟩ := List.mem_iff_getElem.mp member
    rw [List.length_take] at bound
    rw [List.getElem_take, List.getElem_drop, List.getElem_range]
    omega
  refine List.Nodup.map_on ?_ (List.nodup_range.sublist
    ((List.take_sublist _ _).trans (List.drop_sublist _ _)))
  intro first firstIn second secondIn same
  have remainder : first % 65536 = second % 65536 := Text.ofExtranonce_injective same
  have low := window first firstIn
  have high := window second secondIn
  omega

/-! ## What a connection holds -/

/-- A read finds a connection with an extranonce. -/
def FindsExtranonce : (op : BridgeOp) → op.Answer → Nat × Text → Prop
  | .context uid .read, context, item => item = (uid, context.extranonce) ∧ item.2 ≠ []
  | _, _, _ => False

/-- The extranonces of the connections, as a store. -/
theorem extranonceStorage (fresh : ∀ uid, (deployment.contexts uid).extranonce = []) :
    @System.Storage (bridge deployment) (Nat × Text)
      (fun state item => (state.contexts item.1).extranonce = item.2 ∧ item.2 ≠ [])
      (fun op _ item => op = .context item.1 (.setExtranonce item.2)) FindsExtranonce where
  initially := by
    rintro ⟨uid, text⟩ ⟨held, nonempty⟩
    exact nonempty (held.symm.trans (fresh uid))
  gains := by
    rintro op state env answer after ⟨uid, text⟩ performed ⟨held, nonempty⟩
    change performOp state env op = some (answer, after) at performed
    have moved := @performOp_extranonce _ _ _ _ _ _ uid performed
    rw [held] at moved
    cases op with
    | context other op =>
        by_cases same : other = uid
        · subst same
          replace moved := moved.trans (if_pos rfl)
          cases op with
          | setExtranonce written => exact .inr (moved ▸ rfl)
          | _ => exact .inl ⟨moved.symm, nonempty⟩
        · exact .inl ⟨(moved.trans (if_neg same)).symm, nonempty⟩
    | _ => exact .inl ⟨moved.symm, nonempty⟩
  finds := by
    intro op state env answer after item performed found
    change performOp state env op = some (answer, after) at performed
    unfold FindsExtranonce at found
    split at found
    · obtain ⟨rfl, nonempty⟩ := found
      have same := (Prod.mk.inj (Option.some.inj (performOp_context_act performed))).1
      exact ⟨congrArg Context.extranonce same, nonempty⟩
    · exact found.elim

/-- **Holdings.** The extranonce a task reads was assigned. -/
theorem held_execute (fresh : ∀ uid, (deployment.contexts uid).extranonce = [])
    (events : List (bridge deployment).Event) {thread uid : Nat} {context : Context}
    (read : @System.Entry.did (bridge deployment) thread (.context uid .read) context ∈ (System.execute events).log) :
    context.extranonce = [] ∨
      context.extranonce ∈ assignments (System.execute events).log := by
  by_cases nonempty : context.extranonce = []
  · exact .inl nonempty
  · obtain ⟨front, back, split⟩ := List.append_of_mem read
    obtain ⟨writer, op, reply, wrote, rfl⟩ := (extranonceStorage fresh).written_before events
      (uid, context.extranonce) split ⟨rfl, nonempty⟩
    obtain ⟨before, after, cut⟩ := List.append_of_mem wrote
    have whole : (System.execute events).log = before ++
        .did writer (.context uid (.setExtranonce context.extranonce)) reply ::
          (after ++ .did thread (.context uid .read) context :: back) := by
      rw [split, cut, List.append_assoc, List.cons_append]
    obtain ⟨request, -, ⟨-, empty⟩ | ⟨-, empty | ⟨next, drawn, same⟩⟩⟩ :=
      (handshakes_execute events).calls _ _ _ _ _ whole
    · exact absurd empty nonempty
    · exact absurd empty nonempty
    · obtain ⟨op, answer, member, chosen⟩ := System.mem_ownCalls.mp drawn
      refine .inr (List.mem_map.mpr ⟨next, ?_, same.symm⟩)
      rw [whole, System.callsOf_append]
      refine List.mem_append_left _ (System.mem_callsOf.mpr ⟨writer, op, answer, member, ?_⟩)
      cases handshakeCall_cases chosen with
      | drew next => rfl

/-! ## Checked nonces -/

/-- The task decoded its submission to this nonce, with this extranonce in force. -/
structure Searched (log : Record deployment) (thread : Nat)
    (extranonce nonceText : Text) (nonce : Nat) : Prop where
  request : ∃ uid event context, .started thread (.submit uid event) ∈ log ∧
    .did thread (.context uid .read) context ∈ log ∧ context.extranonce = extranonce ∧
      nonceParam event.params = .ok nonceText
  parsed : Text.parseU64 16 (finalNonceText extranonce nonceText) = some nonce

/-- Every nonce that is checked was decoded so. -/
theorem searched_execute (events : List (bridge deployment).Event) {thread nonce : Nat}
    {block : Block} {answer : Bool × Nat}
    (checked : @System.Entry.did (bridge deployment) thread (.checkPow block nonce) answer ∈
      (System.execute events).log) :
    ∃ extranonce nonceText,
      Searched (System.execute events).log thread extranonce nonceText nonce := by
  obtain ⟨front, back, split⟩ := List.append_of_mem checked
  obtain ⟨request, started, submission, ⟨-, text, decoded⟩, rfl⟩ :=
    (guards_execute events).calls front thread (.checkPow block nonce) answer back split
  obtain ⟨event, context, nonceText, rfl, -, param, read, rfl⟩ := decoded.event
  obtain ⟨op, reply, member, chosen⟩ := System.mem_ownCalls.mp read
  have inLog : ∀ entry ∈ front, entry ∈ (System.execute events).log := by
    intro entry member
    rw [split]
    exact List.mem_append_left _ member
  refine ⟨context.extranonce, nonceText, ⟨submission.uid, event, context, inLog _ started, ?_, rfl,
    param⟩, decoded.nonce⟩
  cases guardCall_cases chosen with
  | read uid context => exact inLog _ member

/-- The extranonce in force is one of two bytes. -/
theorem assigned_of_searched (fresh : ∀ uid, (deployment.contexts uid).extranonce = [])
    {events : List (bridge deployment).Event} {thread : Nat} {extranonce nonceText : Text}
    {nonce : Nat}
    (searched : Searched (System.execute events).log thread extranonce nonceText nonce)
    (held : extranonce ≠ []) :
    ∃ value, value < 65536 ∧ extranonce = Text.ofExtranonce value := by
  obtain ⟨uid, event, context, -, read, rfl, -⟩ := searched.request
  have assigned := (held_execute fresh events read).resolve_left held
  rw [assignments_execute events] at assigned
  obtain ⟨index, -, same⟩ := List.mem_map.mp assigned
  exact ⟨index % 65536, Nat.mod_lt _ (by decide), same.symm⟩

/-- **Disjoint search spaces.** Consecutive assignments are distinct until the counter has gone
round, connections hold nothing else, and miners with different extranonces that send their
nonces in short form never have the same nonce checked. -/
theorem search_spaces_disjoint (fresh : ∀ uid, (deployment.contexts uid).extranonce = [])
    (events : List (bridge deployment).Event) :
    (∀ start, (((assignments (System.execute events).log).drop start).take 65536).Nodup) ∧
    (∀ thread uid context,
      @System.Entry.did (bridge deployment) thread (.context uid .read) context ∈ (System.execute events).log →
      context.extranonce = [] ∨
        context.extranonce ∈ assignments (System.execute events).log) ∧
    ∀ first second firstBlock secondBlock firstNonce secondNonce firstAnswer secondAnswer,
      @System.Entry.did (bridge deployment) first (.checkPow firstBlock firstNonce)
        firstAnswer ∈ (System.execute events).log →
      @System.Entry.did (bridge deployment) second (.checkPow secondBlock secondNonce)
        secondAnswer ∈ (System.execute events).log →
      ∃ firstExtranonce firstText secondExtranonce secondText,
        Searched (System.execute events).log first firstExtranonce firstText firstNonce ∧
        Searched (System.execute events).log second secondExtranonce secondText secondNonce ∧
        (firstExtranonce ≠ [] → secondExtranonce ≠ [] → firstExtranonce ≠ secondExtranonce →
          (Text.remove0x firstText).length ≤ 12 → (Text.remove0x secondText).length ≤ 12 →
          firstNonce ≠ secondNonce) := by
  refine ⟨nodup_assignments events, fun _ _ _ => held_execute fresh events, ?_⟩
  intro first second firstBlock secondBlock firstNonce secondNonce firstAnswer secondAnswer
    firstChecked secondChecked
  obtain ⟨firstExtranonce, firstText, firstSearched⟩ := searched_execute events firstChecked
  obtain ⟨secondExtranonce, secondText, secondSearched⟩ := searched_execute events secondChecked
  refine ⟨_, _, _, _, firstSearched, secondSearched, ?_⟩
  rintro firstHeld secondHeld different firstShort secondShort rfl
  obtain ⟨firstValue, firstSmall, rfl⟩ := assigned_of_searched fresh firstSearched firstHeld
  obtain ⟨secondValue, secondSmall, rfl⟩ := assigned_of_searched fresh secondSearched secondHeld
  have firstHigh := high_of_finalNonceText firstSmall firstShort firstSearched.parsed
  have secondHigh := high_of_finalNonceText secondSmall secondShort secondSearched.parsed
  exact different (congrArg Text.ofExtranonce (firstHigh.symm.trans secondHigh))

end Model

/-! ## A sample run -/

section Sample

attribute [local instance] Sample.platform

/-- The nonces a run checks. -/
def checkedNonce : (op : BridgeOp) → op.Answer → Option Nat
  | .checkPow _ nonce, _ => some nonce
  | _, _ => none

namespace Sample

/-- A job for a subscribed connection. -/
def subscribesAndWorks (thread uid : Nat) : List (bridge (deployment none)).Event :=
  .start (.subscribe uid ⟨none, [.string ['m']]⟩) :: steps none thread 9 {}
    ++ .start (.immediateJob uid) :: steps none (thread + 1) 18 { template := .block easyBlock }
    ++ steps none (thread + 1) 40 { template := .block easyParent }

/-- Two miners subscribe, get a job each, and send the same short nonce. -/
def twoMiners : List (bridge (deployment none)).Event :=
  subscribesAndWorks 0 1 ++ subscribesAndWorks 2 2
    ++ .start (.submit 1 ⟨none, [.string [], .string ['1'], .string ['5']]⟩) :: steps none 4 90 {}
    ++ .start (.submit 2 ⟨none, [.string [], .string ['1'], .string ['5']]⟩) :: steps none 5 90 {}

theorem exists_did_of_checkedNonce {payout : Option Text} {log : Record (deployment payout)}
    {thread nonce : Nat} (member : (thread, nonce) ∈ System.callsBy checkedNonce log) :
    ∃ block answer, .did thread (.checkPow block nonce) answer ∈ log := by
  obtain ⟨op, answer, inLog, chosen⟩ := System.mem_ownCalls.mp (System.mem_callsBy.mp member)
  unfold checkedNonce at chosen
  split at chosen
  · cases chosen
    exact ⟨_, _, inLog⟩
  · exact nomatch chosen

theorem search_spaces_disjoint_sample :
    assignments (System.execute twoMiners).log =
      [Text.ofString "0000", Text.ofString "0001"] ∧
    ∃ firstExtranonce firstText secondExtranonce secondText,
      Searched (System.execute twoMiners).log 4 firstExtranonce firstText 5 ∧
      Searched (System.execute twoMiners).log 5 secondExtranonce secondText 0x0001000000000005 := by
  have listed : System.callsBy checkedNonce (System.execute twoMiners).log =
      [(4, 5), (5, 0x0001000000000005)] := by
    decide +kernel
  obtain ⟨_, _, first⟩ := exists_did_of_checkedNonce (listed ▸ List.mem_cons_self)
  obtain ⟨_, _, second⟩ :=
    exists_did_of_checkedNonce (listed ▸ List.mem_cons_of_mem _ List.mem_cons_self)
  obtain ⟨-, -, disjoint⟩ := search_spaces_disjoint (fun _ => rfl) twoMiners
  obtain ⟨_, _, _, _, one, other, -⟩ := disjoint _ _ _ _ _ _ _ _ first second
  exact ⟨by decide +kernel, _, _, _, _, one, other⟩

end Sample

end Sample

end StratumBridge
