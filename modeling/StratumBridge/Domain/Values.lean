import StratumBridge.Bridge.Events
import StratumBridge.Foundation.Serde
import StratumBridge.Foundation.Slices

/-! # Domain values

Wallet addresses, worker names and share difficulties are newtypes whose constructors check
their field. They derive `Deserialize` transparently, and that reader does not check: a document
with any text is read as an address and as a worker name, and one with any number as a difficulty.
-/

namespace StratumBridge.Domain

open Serde Slices

/-! ## Wallet addresses -/

/-- A wallet address; the field is private. -/
structure WalletAddress where
  text : Text
deriving DecidableEq

inductive AddressError where
  | invalidPrefix
  | tooShort (len : Nat)
  | tooLong (len : Nat)
  | invalidCharacter (char : Char)
deriving DecidableEq

def minTotalLen : Nat := 13

def maxTotalLen : Nat := 110

/-- `WalletAddress::new`: the first check that fails is reported. -/
def WalletAddress.new (text : Text) : Except AddressError WalletAddress :=
  match addressBody text with
  | none => .error .invalidPrefix
  | some body =>
      if byteLength text < minTotalLen then .error (.tooShort (byteLength text))
      else if maxTotalLen < byteLength text then .error (.tooLong (byteLength text))
      else
        match body.find? fun char => !isBech32Char char with
        | some char => .error (.invalidCharacter char)
        | none => .ok ⟨text⟩

/-- An accepted prefix, lower-case letters and digits behind it, and a length in range. -/
def WalletAddress.Valid (address : WalletAddress) : Prop :=
  (∃ accepted ∈ acceptedPrefixes, ∃ body, address.text = accepted ++ body ∧
    ∀ char ∈ body, char.isLower = true ∨ char.isDigit = true) ∧
      minTotalLen ≤ address.text.length ∧ address.text.length ≤ maxTotalLen

section Addresses

variable {text body : Text}

theorem isBech32Char_iff {char : Char} :
    isBech32Char char = true ↔ char.isLower = true ∨ char.isDigit = true := by
  rw [isBech32Char, Bool.or_eq_true]

theorem isBech32Char_ascii {char : Char} (accepted : isBech32Char char = true) :
    char.val ≤ 127 := by
  simp only [isBech32Char, Char.isLower, Char.isDigit, Bool.or_eq_true, Bool.and_eq_true,
    decide_eq_true_eq, UInt32.le_iff_toNat_le, ge_iff_le] at accepted ⊢
  simp at accepted
  simp
  omega

/-- No accepted prefix begins with another. -/
theorem acceptedPrefixes_free {first second : Text} (firstMem : first ∈ acceptedPrefixes)
    (secondMem : second ∈ acceptedPrefixes) (begins : first <+: second) : first = second := by
  have check : (acceptedPrefixes.all fun first => acceptedPrefixes.all fun second =>
      !first.isPrefixOf second || first == second) = true := by
    decide
  have pair := List.all_eq_true.mp (List.all_eq_true.mp check first firstMem) second secondMem
  rw [Bool.or_eq_true, Bool.not_eq_true', beq_iff_eq] at pair
  rw [← List.isPrefixOf_iff_prefix] at begins
  apply pair.resolve_left
  rw [begins]
  exact Bool.noConfusion

theorem acceptedPrefixes_ascii {accepted : Text} (member : accepted ∈ acceptedPrefixes) :
    ∀ char ∈ accepted, char.val ≤ 127 := by
  have check : (acceptedPrefixes.all fun accepted => accepted.all fun char =>
      decide (char.val ≤ 127)) = true := by
    decide
  intro char inPrefix
  have inAll := List.all_eq_true.mp check accepted member
  exact of_decide_eq_true (List.all_eq_true.mp inAll char inPrefix)

/-- The body is what stands behind an accepted prefix. -/
theorem addressBody_eq_some_iff :
    addressBody text = some body ↔ ∃ accepted ∈ acceptedPrefixes, text = accepted ++ body := by
  unfold addressBody
  constructor
  · intro found
    obtain ⟨accepted, first, rest⟩ := Option.map_eq_some_iff.mp found
    have shown : accepted.isPrefixOf text = true := by
      simpa only using List.find?_some first
    have begins := List.isPrefixOf_iff_prefix.mp shown
    refine ⟨accepted, List.mem_of_find?_eq_some first, ?_⟩
    rw [← rest]
    exact (List.prefix_iff_eq_append.mp begins).symm
  · rintro ⟨accepted, member, rfl⟩
    cases found : acceptedPrefixes.find? fun other => other.isPrefixOf (accepted ++ body) with
    | none =>
        have refused := List.find?_eq_none.mp found accepted member
        exact absurd (List.isPrefixOf_iff_prefix.mpr (List.prefix_append accepted body)) refused
    | some other =>
        have shown : other.isPrefixOf (accepted ++ body) = true := by
          simpa only using List.find?_some found
        have begins := List.isPrefixOf_iff_prefix.mp shown
        have listed := List.mem_of_find?_eq_some found
        -- Two prefixes of one text: one begins with the other, so they are the same.
        have same : other = accepted := by
          rcases List.prefix_or_prefix_of_prefix begins (List.prefix_append accepted body) with
            shorter | longer
          · exact acceptedPrefixes_free listed member shorter
          · exact (acceptedPrefixes_free member listed longer).symm
        rw [same, Option.map_some, List.drop_left]

/-- What the constructor accepts takes one byte for each character. -/
theorem address_byteLength (found : addressBody text = some body)
    (payload : ∀ char ∈ body, isBech32Char char = true) : byteLength text = text.length := by
  obtain ⟨accepted, member, rfl⟩ := addressBody_eq_some_iff.mp found
  apply byteLength_of_ascii
  intro char inText
  rcases List.mem_append.mp inText with inPrefix | inBody
  · exact acceptedPrefixes_ascii member char inPrefix
  · exact isBech32Char_ascii (payload char inBody)

theorem WalletAddress.valid_iff :
    (WalletAddress.mk text).Valid ↔ ∃ body, addressBody text = some body ∧
      (∀ char ∈ body, isBech32Char char = true) ∧
        minTotalLen ≤ text.length ∧ text.length ≤ maxTotalLen := by
  simp only [isBech32Char_iff, addressBody_eq_some_iff]
  constructor
  · rintro ⟨⟨accepted, member, body, split, payload⟩, range⟩
    exact ⟨body, ⟨accepted, member, split⟩, payload, range⟩
  · rintro ⟨body, ⟨accepted, member, split⟩, payload, range⟩
    exact ⟨⟨accepted, member, body, split, payload⟩, range⟩

/-- The constructor accepts the valid texts, and wraps them. -/
theorem WalletAddress.new_eq_ok_iff {address : WalletAddress} :
    WalletAddress.new text = .ok address ↔ address = ⟨text⟩ ∧ (WalletAddress.mk text).Valid := by
  rw [WalletAddress.valid_iff]
  unfold WalletAddress.new
  cases found : addressBody text with
  | none => simp
  | some body =>
      simp only [Option.some.injEq, exists_eq_left']
      constructor
      · intro accepted
        split at accepted
        case isTrue => cases accepted
        case isFalse long =>
          split at accepted
          case isTrue => cases accepted
          case isFalse short =>
            split at accepted
            case h_1 => cases accepted
            case h_2 clean =>
              cases accepted
              have payload : ∀ char ∈ body, isBech32Char char = true := by
                simpa using List.find?_eq_none.mp clean
              rw [address_byteLength found payload] at long short
              exact ⟨rfl, payload, not_lt.mp long, not_lt.mp short⟩
      · rintro ⟨rfl, payload, long, short⟩
        have clean : body.find? (fun char => !isBech32Char char) = none := by
          simpa using payload
        rw [address_byteLength found payload, if_neg (not_lt.mpr long), if_neg (not_lt.mpr short),
          clean]

end Addresses

/-! ## Worker names -/

/-- A worker name; the field is private. -/
structure WorkerName where
  text : Text
deriving DecidableEq

inductive WorkerNameError where
  | empty
  | tooLong (len : Nat)
  | invalidCharacter (char : Char)
deriving DecidableEq

def maxLen : Nat := 64

/-- `WorkerName::new`. -/
def WorkerName.new (text : Text) : Except WorkerNameError WorkerName :=
  if text = [] then .error .empty
  else if maxLen < byteLength text then .error (.tooLong (byteLength text))
  else
    match text.find? fun char => !isSafeWorkerChar char with
    | some char => .error (.invalidCharacter char)
    | none => .ok ⟨text⟩

/-- Between one and 64 characters of the alphabet. -/
def WorkerName.Valid (worker : WorkerName) : Prop :=
  worker.text ≠ [] ∧ worker.text.length ≤ maxLen ∧
    ∀ char ∈ worker.text, isSafeWorkerChar char = true

section Workers

variable {text : Text}

theorem isSafeWorkerChar_ascii {char : Char} (safe : isSafeWorkerChar char = true) :
    char.val ≤ 127 := by
  rw [isSafeWorkerChar, Bool.or_eq_true] at safe
  rcases safe with letter | mark
  · simp only [Char.isAlphanum, Char.isAlpha, Char.isUpper, Char.isLower, Char.isDigit,
      Bool.or_eq_true, Bool.and_eq_true, decide_eq_true_eq, UInt32.le_iff_toNat_le,
      ge_iff_le] at letter ⊢
    simp at letter
    simp
    omega
  · have check : (['_', '-', '.', '#', '@', ':', '+', '/', '\\'].all fun char =>
        decide (char.val ≤ 127)) = true := by
      decide
    exact of_decide_eq_true (List.all_eq_true.mp check char (List.contains_iff_mem.mp mark))

theorem WorkerName.new_eq_ok_iff {worker : WorkerName} :
    WorkerName.new text = .ok worker ↔ worker = ⟨text⟩ ∧ (WorkerName.mk text).Valid := by
  unfold WorkerName.new WorkerName.Valid
  constructor
  · intro accepted
    split at accepted
    case isTrue => cases accepted
    case isFalse nonempty =>
      split at accepted
      case isTrue => cases accepted
      case isFalse short =>
        split at accepted
        case h_1 => cases accepted
        case h_2 clean =>
          cases accepted
          have safe : ∀ char ∈ text, isSafeWorkerChar char = true := by
            simpa using List.find?_eq_none.mp clean
          rw [byteLength_of_ascii fun char inText => isSafeWorkerChar_ascii (safe char inText)]
            at short
          exact ⟨rfl, nonempty, not_lt.mp short, safe⟩
  · rintro ⟨rfl, nonempty, short, safe⟩
    have clean : text.find? (fun char => !isSafeWorkerChar char) = none := by
      simpa using safe
    rw [if_neg nonempty,
      byteLength_of_ascii fun char inText => isSafeWorkerChar_ascii (safe char inText),
      if_neg (not_lt.mpr short), clean]

end Workers

/-! ## Share difficulties -/

/-- A share difficulty; the field is private. -/
structure ShareDifficulty where
  number : Binary64
deriving DecidableEq

inductive DifficultyError where
  | notFinite
  | nonPositive
deriving DecidableEq

/-- `ShareDifficulty::new`. -/
def ShareDifficulty.new (number : Binary64) : Except DifficultyError ShareDifficulty :=
  if !number.isFinite then .error .notFinite
  else if number.leZero then .error .nonPositive
  else .ok ⟨number⟩

/-- A finite number above zero. -/
def ShareDifficulty.Valid (difficulty : ShareDifficulty) : Prop :=
  difficulty.number.isFinite = true ∧ 0 < difficulty.number.value

theorem ShareDifficulty.new_eq_ok_iff {number : Binary64} {difficulty : ShareDifficulty} :
    ShareDifficulty.new number = .ok difficulty ↔
      difficulty = ⟨number⟩ ∧ (ShareDifficulty.mk number).Valid := by
  unfold ShareDifficulty.new ShareDifficulty.Valid
  cases finite : number.isFinite with
  | false => simp
  | true =>
      have compare := Binary64.leZero_iff finite
      cases below : number.leZero with
      | true => simp [not_lt.mpr (compare.mp below)]
      | false =>
          have above : 0 < number.value := by
            rw [← not_le, ← compare, below]
            exact Bool.noConfusion
          simp [above, eq_comm]

/-! ## Reading them from documents -/

def walletAddress : Newtype Text WalletAddress AddressError where
  wrap := .mk
  raw := WalletAddress.text
  new := WalletAddress.new
  read := readString
  write := .string
  raw_wrap _ := rfl
  new_wraps _ _ accepted := (WalletAddress.new_eq_ok_iff.mp accepted).1
  read_write _ := rfl

def workerName : Newtype Text WorkerName WorkerNameError where
  wrap := .mk
  raw := WorkerName.text
  new := WorkerName.new
  read := readString
  write := .string
  raw_wrap _ := rfl
  new_wraps _ _ accepted := (WorkerName.new_eq_ok_iff.mp accepted).1
  read_write _ := rfl

def shareDifficulty : Newtype Binary64 ShareDifficulty DifficultyError where
  wrap := .mk
  raw := ShareDifficulty.number
  new := ShareDifficulty.new
  read := readDouble
  write := .double
  raw_wrap _ := rfl
  new_wraps _ _ accepted := (ShareDifficulty.new_eq_ok_iff.mp accepted).1
  read_write _ := rfl

theorem walletAddress_accepts_iff (text : Text) :
    walletAddress.Accepts text ↔ (WalletAddress.mk text).Valid := by
  constructor
  · rintro ⟨address, accepted⟩
    exact (WalletAddress.new_eq_ok_iff.mp accepted).2
  · intro valid
    exact ⟨⟨text⟩, WalletAddress.new_eq_ok_iff.mpr ⟨rfl, valid⟩⟩

theorem workerName_accepts_iff (text : Text) :
    workerName.Accepts text ↔ (WorkerName.mk text).Valid := by
  constructor
  · rintro ⟨worker, accepted⟩
    exact (WorkerName.new_eq_ok_iff.mp accepted).2
  · intro valid
    exact ⟨⟨text⟩, WorkerName.new_eq_ok_iff.mpr ⟨rfl, valid⟩⟩

theorem shareDifficulty_accepts_iff (number : Binary64) :
    shareDifficulty.Accepts number ↔ (ShareDifficulty.mk number).Valid := by
  constructor
  · rintro ⟨difficulty, accepted⟩
    exact (ShareDifficulty.new_eq_ok_iff.mp accepted).2
  · intro valid
    exact ⟨⟨number⟩, ShareDifficulty.new_eq_ok_iff.mpr ⟨rfl, valid⟩⟩

/-- The events of the bridge carry an address only if the constructor accepts its text. -/
theorem walletAddress_event_iff (text : Text) :
    (StratumBridge.WalletAddress.new text).isSome ↔ walletAddress.Accepts text := by
  have checked : (StratumBridge.WalletAddress.new text).isSome ↔ validWallet text = true := by
    unfold StratumBridge.WalletAddress.new
    split <;> simp [*]
  rw [checked, walletAddress_accepts_iff, WalletAddress.valid_iff, validWallet]
  cases addressBody text with
  | none => simp
  | some body => simp [minTotalLen, maxTotalLen, and_assoc, and_comm]

theorem workerName_event_iff (text : Text) :
    (StratumBridge.WorkerName.new text).isSome ↔ workerName.Accepts text := by
  have checked : (StratumBridge.WorkerName.new text).isSome ↔ validWorker text = true := by
    unfold StratumBridge.WorkerName.new
    split <;> simp [*]
  rw [checked, workerName_accepts_iff, WorkerName.Valid, validWorker]
  simp [maxLen, and_assoc]

/-- Of the unsigned integers, only zero is read as a difficulty that is not valid. -/
theorem shareDifficulty_unsigned_iff (value : UInt64) :
    shareDifficulty.Guards ShareDifficulty.Valid (.unsigned value) ↔ value ≠ 0 := by
  rw [Newtype.guards_iff shareDifficulty_accepts_iff]
  have read : ∀ number, shareDifficulty.read (.unsigned value) = .ok number ↔
      Binary64.ofUnsigned value = number := by
    intro number
    change Except.ok (Binary64.ofUnsigned value) = Except.ok number ↔ _
    rw [Except.ok.injEq]
  simp only [read, forall_eq']
  constructor
  · rintro accepted rfl
    obtain ⟨difficulty, accepted⟩ := accepted
    cases accepted
  · intro nonzero
    obtain ⟨finite, above⟩ := Binary64.ofUnsigned_positive nonzero
    refine ⟨⟨Binary64.ofUnsigned value⟩, ?_⟩
    change ShareDifficulty.new _ = _
    rw [ShareDifficulty.new, finite, above]
    rfl

/-- **Valid values.** A document keeps the values of a type valid, and is read back as itself or
refused as the constructor decides, if and only if the field it holds, if any, is one that the
constructor accepts. -/
theorem values_valid_iff (document : Content) :
    (walletAddress.Guards WalletAddress.Valid document ↔
        ∀ text, readString document = .ok text → walletAddress.Accepts text) ∧
      (workerName.Guards WorkerName.Valid document ↔
        ∀ text, readString document = .ok text → workerName.Accepts text) ∧
      (shareDifficulty.Guards ShareDifficulty.Valid document ↔
        ∀ number, readDouble document = .ok number → shareDifficulty.Accepts number) := by
  constructor
  · exact Newtype.guards_iff walletAddress_accepts_iff document
  constructor
  · exact Newtype.guards_iff workerName_accepts_iff document
  · exact Newtype.guards_iff shareDifficulty_accepts_iff document

/-- The text `hello` is read as an address, the empty text as a worker name, and zero as a
difficulty. -/
theorem values_read_unchecked :
    ¬walletAddress.Guards WalletAddress.Valid (.string "hello".toList) ∧
      ¬workerName.Guards WorkerName.Valid (.string []) ∧
      ¬shareDifficulty.Guards ShareDifficulty.Valid (.unsigned 0) := by
  refine ⟨fun guards => ?_, fun guards => ?_, fun guards => ?_⟩
  · have short := (guards.held ⟨"hello".toList⟩ rfl).2.1
    exact absurd short (by decide)
  · exact (guards.held ⟨[]⟩ rfl).1 rfl
  · have above := (guards.held ⟨⟨0⟩⟩ rfl).2
    simp [Binary64.value, Binary64.significand, Binary64.exponent, Binary64.fraction] at above

end StratumBridge.Domain
