import Mathlib.Data.List.Basic

/-!
# Paths

A path is the byte string the client sent; nothing validates it. `getParentPath` and `getBaseName`
(`KeeperUtils.cpp`) go by the last slash as `std::string::rfind` reports it. Without a slash this is
`npos`, the largest `size_t`, and both return the path itself.
-/

namespace RaftKeeper

open List

abbrev Bytes := List UInt8

def ascii (literal : String) : Bytes :=
  literal.toList.map fun char => UInt8.ofNat char.toNat

def slash : UInt8 := 47

def rootPath : Bytes := [slash]

/-- `std::string::rfind` for a single character; `none` is `npos`. -/
def rfind (target : UInt8) : Bytes → Option Nat
  | [] => none
  | byte :: rest =>
    match rfind target rest with
    | some position => some (position + 1)
    | none => if byte = target then some 0 else none

/-- `getBaseName`: what follows the last slash. -/
def getBaseName (path : Bytes) : Bytes :=
  match rfind slash path with
  | some position => path.drop (position + 1)
  | none => path

/-- `getParentPath`: what precedes the last slash, or `"/"` if that is empty. -/
def getParentPath (path : Bytes) : Bytes :=
  match rfind slash path with
  | some 0 => rootPath
  | some position => path.take position
  | none => path

/-- The path of a child: the name appended to the parent's path with one slash between. -/
def childPath (parent name : Bytes) : Bytes :=
  (if parent = rootPath then parent else parent ++ [slash]) ++ name

theorem rfind_eq_none {target : UInt8} {bytes : Bytes} (absent : target ∉ bytes) :
    rfind target bytes = none := by
  induction bytes with
  | nil => rfl
  | cons byte rest ih =>
    simp only [mem_cons, not_or] at absent
    rw [rfind, ih absent.2]
    exact if_neg (Ne.symm absent.1)

theorem rfind_append_cons {target : UInt8} (before : Bytes) {after : Bytes}
    (absent : target ∉ after) :
    rfind target (before ++ target :: after) = some before.length := by
  induction before with
  | nil => simp [rfind, rfind_eq_none absent]
  | cons byte rest ih => simp [rfind, ih]

variable {path : Bytes}

theorem exists_lastSlash (present : slash ∈ path) :
    ∃ before after, path = before ++ slash :: after ∧ slash ∉ after := by
  induction path with
  | nil => cases present
  | cons byte rest ih =>
    by_cases later : slash ∈ rest
    · rcases ih later with ⟨before, after, rfl, absent⟩
      exact ⟨byte :: before, after, rfl, absent⟩
    · rcases mem_cons.mp present with rfl | inRest
      · exact ⟨[], rest, rfl, later⟩
      · exact absurd inRest later

theorem getBaseName_append_cons (before : Bytes) {after : Bytes} (absent : slash ∉ after) :
    getBaseName (before ++ slash :: after) = after := by
  rw [getBaseName, rfind_append_cons before absent]
  simp [drop_append]

theorem getParentPath_append_cons {before after : Bytes} (nonempty : before ≠ [])
    (absent : slash ∉ after) : getParentPath (before ++ slash :: after) = before := by
  rw [getParentPath, rfind_append_cons before absent]
  cases before with
  | nil => exact absurd rfl nonempty
  | cons byte rest => simp

theorem getParentPath_slash_cons {after : Bytes} (absent : slash ∉ after) :
    getParentPath (slash :: after) = rootPath := by
  have found := rfind_append_cons [] absent
  simp only [nil_append, length_nil] at found
  simp only [getParentPath, found]

theorem getParentPath_of_noSlash (absent : slash ∉ path) : getParentPath path = path := by
  rw [getParentPath, rfind_eq_none absent]

@[simp]
theorem getParentPath_rootPath : getParentPath rootPath = rootPath := by decide

@[simp]
theorem getBaseName_rootPath : getBaseName rootPath = [] := by decide

theorem slash_notMem_getBaseName (present : slash ∈ path) : slash ∉ getBaseName path := by
  rcases exists_lastSlash present with ⟨before, after, rfl, absent⟩
  rwa [getBaseName_append_cons before absent]

theorem childPath_rootPath (name : Bytes) : childPath rootPath name = slash :: name := by
  simp [childPath, rootPath]

theorem childPath_of_ne {parent : Bytes} (notRoot : parent ≠ rootPath) (name : Bytes) :
    childPath parent name = parent ++ slash :: name := by
  simp [childPath, notRoot]

theorem slash_mem_childPath (parent name : Bytes) : slash ∈ childPath parent name := by
  by_cases isRoot : parent = rootPath
  · subst isRoot
    simp [childPath_rootPath]
  · simp [childPath_of_ne isRoot]

theorem getParentPath_childPath {parent name : Bytes} (nonempty : parent ≠ [])
    (absent : slash ∉ name) : getParentPath (childPath parent name) = parent := by
  by_cases isRoot : parent = rootPath
  · subst isRoot
    rw [childPath_rootPath, getParentPath_slash_cons absent]
  · rw [childPath_of_ne isRoot, getParentPath_append_cons nonempty absent]

theorem getBaseName_childPath (parent : Bytes) {name : Bytes} (absent : slash ∉ name) :
    getBaseName (childPath parent name) = name := by
  by_cases isRoot : parent = rootPath
  · subst isRoot
    rw [childPath_rootPath]
    exact getBaseName_append_cons [] absent
  · rw [childPath_of_ne isRoot, getBaseName_append_cons parent absent]

theorem length_lt_length_childPath (parent name : Bytes)
    (proper : parent ≠ rootPath ∨ name ≠ []) :
    parent.length < (childPath parent name).length := by
  by_cases isRoot : parent = rootPath
  · subst isRoot
    have nonempty : name ≠ [] := proper.resolve_left (by simp)
    have positive := length_pos_iff.mpr nonempty
    rw [childPath_rootPath]
    simp only [rootPath, length_cons, length_nil]
    omega
  · simp only [childPath_of_ne isRoot, length_append, length_cons]
    omega

theorem length_getParentPath_le (path : Bytes) : (getParentPath path).length ≤ path.length := by
  by_cases present : slash ∈ path
  · rcases exists_lastSlash present with ⟨before, after, rfl, absent⟩
    by_cases empty : before = []
    · subst empty
      rw [nil_append, getParentPath_slash_cons absent]
      simp [rootPath]
    · rw [getParentPath_append_cons empty absent]
      simp
  · exact Nat.le_of_eq (congrArg length (getParentPath_of_noSlash present))

/--
Every path with a slash is the child of its parent under its base name, except for
a path `"//name"`: its parent is `"/"` too, but the child of `"/"` is `"/name"`.
-/
theorem eq_childPath_or_doubleSlash (present : slash ∈ path) :
    path = childPath (getParentPath path) (getBaseName path) ∨
      path = slash :: slash :: getBaseName path := by
  rcases exists_lastSlash present with ⟨before, after, rfl, absent⟩
  rw [getBaseName_append_cons before absent]
  by_cases empty : before = []
  · subst empty
    left
    rw [nil_append, getParentPath_slash_cons absent, childPath_rootPath]
  · rw [getParentPath_append_cons empty absent]
    by_cases isRoot : before = rootPath
    · subst isRoot
      right
      rfl
    · left
      rw [childPath_of_ne isRoot]

end RaftKeeper
