import StratumBridge.Interaction.Observation

/-! # What is read was written

A store that only gains the items some calls write into it gives back only items
that were written before.
-/

namespace Interaction.System

variable {sys : System} {κ : Type} {holds : sys.State → κ → Prop}
  {writes reads : (op : sys.sig.Op) → sys.sig.Answer op → κ → Prop}

/-- The calls through which the items of a store come and go. -/
structure Storage (holds : sys.State → κ → Prop)
    (writes reads : (op : sys.sig.Op) → sys.sig.Answer op → κ → Prop) : Prop where
  initially : ∀ item, ¬ holds sys.initial item
  gains : ∀ op state env answer after item, sys.perform op state env = some (answer, after) →
    holds after item → holds state item ∨ writes op answer item
  finds : ∀ op state env answer after item, sys.perform op state env = some (answer, after) →
    reads op answer item → holds state item

/-- An item in the store was written. -/
theorem Storage.written (storage : Storage holds writes reads) (events : List sys.Event)
    {item : κ} (held : holds (execute events).state item) :
    ∃ thread op answer, Entry.did thread op answer ∈ (execute events).log ∧
      writes op answer item := by
  revert held
  refine execute_induction (fun config => holds config.state item →
    ∃ thread op answer, Entry.did thread op answer ∈ config.log ∧ writes op answer item)
    ?_ ?_ along_true
  · exact fun held => absurd held (storage.initially item)
  · intro config event after ih _ step held
    have weaken : ∀ entry, (∃ thread op answer, Entry.did thread op answer ∈ config.log ∧
        writes op answer item) → ∃ thread op answer,
          Entry.did thread op answer ∈ config.log ++ [entry] ∧ writes op answer item := by
      rintro entry ⟨thread, op, answer, member, wrote⟩
      exact ⟨thread, op, answer, List.mem_append_left _ member, wrote⟩
    cases step with
    | stutter => exact ih held
    | start request => exact weaken _ (ih held)
    | finish thread env result running => exact weaken _ (ih held)
    | call thread env op next answer state running performed =>
        rcases storage.gains op config.state env answer state item performed held with old | wrote
        · exact weaken _ (ih old)
        · exact ⟨thread, op, answer, List.mem_append_right _ List.mem_cons_self, wrote⟩

/-- **Storage.** An item read at some point of a run was written before. -/
theorem Storage.written_before (storage : Storage holds writes reads) (events : List sys.Event)
    {front back : List sys.Entry} {thread : Nat} {op : sys.sig.Op} {answer : sys.sig.Answer op}
    (item : κ) (split : (execute events).log = front ++ .did thread op answer :: back)
    (read : reads op answer item) :
    ∃ writer wrote reply, Entry.did writer wrote reply ∈ front ∧ writes wrote reply item := by
  induction events using List.reverseRecOn generalizing back with
  | nil => exact absurd split.symm (List.append_ne_nil_of_right_ne_nil front (List.cons_ne_nil _ _))
  | append_singleton events event ih =>
      rw [execute_snoc] at split
      have step := advance_cases (execute events) event
      revert split step
      generalize (execute events).advance event = after
      intro split step
      cases step with
      | stutter => exact ih split
      | start request =>
          rcases split_snoc split with ⟨-, absurdity⟩ | ⟨body, earlier⟩
          · exact nomatch absurdity
          · exact ih earlier
      | finish other env result running =>
          rcases split_snoc split with ⟨-, absurdity⟩ | ⟨body, earlier⟩
          · exact nomatch absurdity
          · exact ih earlier
      | call other env called next reply state running performed =>
          rcases split_snoc split with ⟨rfl, same⟩ | ⟨body, earlier⟩
          · cases same
            have held := storage.finds op _ env answer state item performed read
            exact storage.written events held
          · exact ih earlier

end Interaction.System
