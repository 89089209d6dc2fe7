import StratumBridge.Bridge.Provenance

/-! # Isolation of the parent cache

Fetches for different lanes and payees share one cached parent. However they
interleave, a fetch returns a parent that was requested for its own lane and its own
recipient.
-/

namespace StratumBridge

open Interaction

section Model

variable [Platform] {deployment : Deployment}

/-- **Cache isolation.** A fetch that returns a parent returns the answer of the Kaspa
node to a request for this lane paying this payee, or the operator when there is no
payee. -/
theorem fetched_parent_isolated (injective : Function.Injective Platform.addressText)
    (events : List (bridge deployment).Event) {front back : Record deployment} {thread : Nat}
    {hFc : Hash} {payee : Option Address} {force : Bool} {parent : Block}
    (started : .started thread (.fetchKaspaParent hFc payee force) ∈ front)
    (split : (System.execute events).log =
      front ++ .finished thread (.parent (.ok parent)) :: back) :
    ∃ pay, parentRecipient deployment.settings payee = some pay ∧ Obtained front pay hFc parent := by
  have regrouped : (System.execute events).log =
      (front ++ [.finished thread (.parent (.ok parent))]) ++ back := by
    rw [split, List.append_assoc, List.singleton_append]
  obtain ⟨before, -, same⟩ := System.exists_execute_log_eq regrouped
  have holds := provenance_execute before
  rw [same] at holds
  have sound := holds.finished thread (.fetchKaspaParent hFc payee force) (.parent (.ok parent))
    (List.mem_append_left _ started) (List.mem_append_right _ List.mem_cons_self)
  obtain ⟨pay, requested, chosen, rendered, requester, member⟩ := sound
  obtain rfl : requested = pay := injective rendered
  refine ⟨requested, chosen, requester, ?_⟩
  rcases List.mem_append.mp member with earlier | last
  · exact earlier
  · exact nomatch List.mem_singleton.mp last

end Model

section Sample

attribute [local instance] Sample.platform

/-- The parent of lane 7 in the sample run. -/
private def sampleParent : Block := Sample.block 1 0 [Sample.commitment 7]

/-- One fetch asks the node, a second one finds the parent in the cache. -/
private def sampleEvents : List (bridge (Sample.deployment none)).Event :=
  [.start (.fetchKaspaParent 7 none false)]
    ++ Sample.steps none 0 7 { template := .block sampleParent }
    ++ [.start (.fetchKaspaParent 7 none false)] ++ Sample.steps none 1 2 {}

theorem fetched_parent_isolated_sample :
    ∃ pay, parentRecipient Sample.settings none = some pay ∧
      Obtained (System.execute sampleEvents).log pay 7 sampleParent := by
  have started : System.Entry.started 1 (BridgeRequest.fetchKaspaParent 7 none false) ∈
      (System.execute sampleEvents).log := List.mem_of_getElem? (i := 8) rfl
  have split : (System.execute (sampleEvents ++ Sample.steps none 1 1 {})).log =
      (System.execute sampleEvents).log ++ [.finished 1 (.parent (.ok sampleParent))] := rfl
  exact fetched_parent_isolated Function.injective_id _ started split

end Sample

end StratumBridge
