import Mathlib.Data.List.Infix

/-! # File paths as text

A path is a text; its names are what stands between the separators. Empty names and single
dots mean nothing, so two texts with the same names lead to the same place.
-/

namespace Path

/-- Split at the separator, keeping empty names. -/
def split : List Char → List (List Char)
  | [] => [[]]
  | char :: rest =>
      if char = '/' then [] :: split rest
      else
        match split rest with
        | [] => [[char]]
        | name :: names => (char :: name) :: names

/-- A name that leads somewhere. -/
def Moves (name : List Char) : Prop := name ≠ [] ∧ name ≠ ['.']

instance (name : List Char) : Decidable (Moves name) :=
  inferInstanceAs (Decidable (_ ∧ _))

def components (path : List Char) : List (List Char) := (split path).filter fun name => Moves name

def isAbsolute (path : List Char) : Bool := decide (path.head? = some '/')

/-- Continue a path with another one; an absolute path replaces what came before. -/
def join (base path : List Char) : List Char :=
  if isAbsolute path then path
  else if base = [] ∨ base.getLast? = some '/' then base ++ path
  else base ++ '/' :: path

/-- The path leads to something inside the directory. -/
structure Beneath (directory path : List Char) : Prop where
  absolute : isAbsolute path = isAbsolute directory
  inside : ∃ names, components path = components directory ++ names ∧ names ≠ [] ∧
    ['.', '.'] ∉ names

section Names

variable {base path name : List Char}

theorem split_ne_nil (path : List Char) : split path ≠ [] := by
  cases path with
  | nil => exact List.cons_ne_nil _ _
  | cons char rest =>
      unfold split
      split
      · exact List.cons_ne_nil _ _
      · split <;> exact List.cons_ne_nil _ _

theorem split_append (front back : List Char) :
    split (front ++ '/' :: back) = split front ++ split back := by
  induction front with
  | nil => rfl
  | cons char rest ih =>
      rw [List.cons_append, split, split, ih]
      by_cases separates : char = '/'
      · rw [if_pos separates, if_pos separates, List.cons_append]
      · rw [if_neg separates, if_neg separates]
        obtain ⟨name, names, same⟩ := List.exists_cons_of_ne_nil (split_ne_nil rest)
        rw [same]
        rfl

theorem components_append (front back : List Char) :
    components (front ++ '/' :: back) = components front ++ components back := by
  rw [components, split_append, List.filter_append]
  rfl

/-- The first name starts the path, and the others are parts of it. -/
theorem split_infix {names : List (List Char)} (parts : split path = name :: names) :
    name <+: path ∧ ∀ other ∈ names, other <:+: path := by
  induction path generalizing name names with
  | nil =>
      obtain ⟨rfl, rfl⟩ := List.cons.inj parts
      exact ⟨List.prefix_refl _, fun _ => nofun⟩
  | cons char rest ih =>
      obtain ⟨first, others, same⟩ := List.exists_cons_of_ne_nil (split_ne_nil rest)
      obtain ⟨starts, within⟩ := ih same
      rw [split, same] at parts
      by_cases separates : char = '/'
      · rw [if_pos separates] at parts
        obtain ⟨rfl, rfl⟩ := List.cons.inj parts
        refine ⟨List.nil_prefix, List.forall_mem_cons.mpr ⟨?_, fun other member => ?_⟩⟩
        · exact List.infix_cons starts.isInfix
        · exact List.infix_cons (within other member)
      · rw [if_neg separates] at parts
        obtain ⟨rfl, rfl⟩ := List.cons.inj parts
        refine ⟨List.cons_prefix_cons.mpr ⟨rfl, starts⟩, fun other member => ?_⟩
        exact List.infix_cons (within other member)

theorem infix_of_mem_components (member : name ∈ components path) : name <:+: path := by
  obtain ⟨first, others, same⟩ := List.exists_cons_of_ne_nil (split_ne_nil path)
  obtain ⟨starts, within⟩ := split_infix same
  have listed : name ∈ first :: others := same ▸ (List.mem_filter.mp member).1
  rcases List.mem_cons.mp listed with rfl | later
  · exact starts.isInfix
  · exact within name later

/-- A relative path continues the base with its own names. -/
theorem components_join (relative : isAbsolute path = false) :
    components (join base path) = components base ++ components path := by
  rw [join, relative, if_neg Bool.false_ne_true]
  split
  case isFalse => exact components_append base path
  case isTrue ends =>
    rcases ends with rfl | slash
    · rfl
    · obtain ⟨front, rfl⟩ := List.getLast?_eq_some_iff.mp slash
      rw [List.append_assoc, List.singleton_append, components_append, components_append]
      exact congrArg (· ++ components path) (List.append_nil _).symm

theorem isAbsolute_join (based : base ≠ []) (relative : isAbsolute path = false) :
    isAbsolute (join base path) = isAbsolute base := by
  obtain ⟨char, rest, rfl⟩ := List.exists_cons_of_ne_nil based
  rw [join, relative, if_neg Bool.false_ne_true]
  split <;> rfl

theorem join_of_absolute (absolute : isAbsolute path = true) : join base path = path :=
  if_pos absolute

theorem join_ne_nil (named : path ≠ []) : join base path ≠ [] := by
  unfold join
  split
  · exact named
  · split
    · exact fun nothing => named (List.append_eq_nil_iff.mp nothing).2
    · exact fun nothing => nomatch (List.append_eq_nil_iff.mp nothing).2

/-- **Confinement.** A relative path that names something and never goes up stays inside. -/
theorem beneath_join (based : base ≠ []) (relative : isAbsolute path = false)
    (named : components path ≠ []) (noParent : ['.', '.'] ∉ components path) :
    Beneath base (join base path) :=
  ⟨isAbsolute_join based relative, components path, components_join relative, named, noParent⟩

end Names

end Path
