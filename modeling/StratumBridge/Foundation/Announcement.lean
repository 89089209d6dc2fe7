import Mathlib.Logic.Basic

/-! # Announcing settings

Items carry the setting that was in force when they were added. The other side learns of settings
by announcements and of items one by one. An item may be handed out when the setting announced
last is the one it carries.
-/

namespace Announcement

variable {σ : Type}

/-- The setting in force, the setting announced last, and the setting each item carries. -/
structure Board (σ : Type) where
  current : Option σ
  told : Option σ
  carried : Nat → Option σ

/-- An item that was added and is not handed out yet. -/
structure Draft (σ : Type) where
  label : Nat
  /-- The setting of the item is announced. -/
  told : Bool
  /-- The setting in force, as it was last seen since. -/
  seen : Option (Option σ)

namespace Draft

/-- The item carries this setting. While the draft follows the setting in force it is that one, and
a draft that is told has it announced last. -/
structure Carries (draft : Draft σ) (follows : Prop) (board : Board σ) (setting : σ) : Prop where
  carried : board.carried draft.label = some setting
  current : follows → board.current = some setting
  seen : follows → ∀ seen ∈ draft.seen, seen = some setting
  told : draft.told = true → board.told = some setting

def Sound (draft : Draft σ) (follows : Prop) (board : Board σ) : Prop :=
  ∃ setting, draft.Carries follows board setting

/-- The draft of an item that was just added. -/
def fresh (label : Nat) (told : Bool) : Draft σ := ⟨label, told, none⟩

def see (draft : Draft σ) (setting : Option σ) : Draft σ := { draft with seen := some setting }

/-- The setting of the item is announced from here on, if it is. -/
def tell (draft : Draft σ) (announced : Bool) : Draft σ :=
  { draft with told := draft.told || announced }

@[simp] theorem see_label (draft : Draft σ) (setting : Option σ) :
    (draft.see setting).label = draft.label := rfl

@[simp] theorem tell_label (draft : Draft σ) (announced : Bool) :
    (draft.tell announced).label = draft.label := rfl

@[simp] theorem tell_seen (draft : Draft σ) (announced : Bool) :
    (draft.tell announced).seen = draft.seen := rfl

theorem tell_false (draft : Draft σ) : draft.tell false = draft := by
  rw [tell, Bool.or_false]

variable {draft : Draft σ} {follows : Prop} {board after : Board σ}

/-- An item added under a setting carries it. -/
theorem sound_fresh {label : Nat} {told : Bool} {setting : σ}
    (carried : board.carried label = some setting) (current : follows → board.current = some setting)
    (announced : told = true → board.told = some setting) :
    (fresh label told).Sound follows board :=
  ⟨setting, carried, current, fun _ _ absurdity => (nomatch absurdity), announced⟩

namespace Sound

variable (sound : draft.Sound follows board)
include sound

/-- **Frame.** A draft stays sound while its item keeps its setting, the setting in force stays if
the draft follows it, and nothing but the item's setting is announced. -/
theorem keep (carried : ∀ setting, board.carried draft.label = some setting →
      after.carried draft.label = some setting)
    (current : follows → after.current = board.current)
    (told : after.told = board.told ∨ after.told = after.carried draft.label) :
    draft.Sound follows after := by
  obtain ⟨setting, carries⟩ := sound
  have kept := carried setting carries.carried
  refine ⟨setting, kept, ?_, carries.seen, ?_⟩
  · intro following
    rw [current following]
    exact carries.current following
  · intro isTold
    rcases told with same | announced
    · rw [same]
      exact carries.told isTold
    · rw [announced]
      exact kept

/-- Seeing the setting in force. -/
theorem see {setting : Option σ} (same : follows → setting = board.current) :
    (draft.see setting).Sound follows board := by
  obtain ⟨carriedSetting, carries⟩ := sound
  refine ⟨carriedSetting, carries.carried, carries.current, ?_, carries.told⟩
  intro following seen inSeen
  obtain rfl := Option.some.inj inSeen
  rw [same following]
  exact carries.current following

/-- The setting the item carries is announced. -/
theorem tell {announced : Bool} (told : announced = true → board.told = board.carried draft.label) :
    (draft.tell announced).Sound follows board := by
  obtain ⟨setting, carries⟩ := sound
  refine ⟨setting, carries.carried, carries.current, carries.seen, ?_⟩
  intro isTold
  rcases Bool.or_eq_true_iff.mp isTold with earlier | now
  · exact carries.told earlier
  · rw [told now]
    exact carries.carried

/-- What a draft that follows the setting in force has seen is what its item carries. -/
theorem seen_eq (following : follows) {seen : Option σ} (inSeen : draft.seen = some seen) :
    seen = board.carried draft.label ∧ seen ≠ none := by
  obtain ⟨setting, carries⟩ := sound
  have same := carries.seen following seen inSeen
  rw [same, carries.carried]
  exact ⟨rfl, Option.some_ne_none _⟩

theorem current_eq (following : follows) : board.current = board.carried draft.label := by
  obtain ⟨setting, carries⟩ := sound
  rw [carries.current following, carries.carried]

/-- **Handing out.** The item of a draft that is told carries the setting announced last. -/
theorem carried_eq_told (told : draft.told = true) :
    ∃ setting, board.told = some setting ∧ board.carried draft.label = some setting := by
  obtain ⟨setting, carries⟩ := sound
  exact ⟨setting, carries.told told, carries.carried⟩

end Sound

end Draft

end Announcement
