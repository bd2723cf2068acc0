import Mathlib.Data.List.Basic
import Mathlib.Tactic.Common

/-!
# Trees of files

Directories and regular files by their paths, and what a tree holds after a set of files was
written into it.

* `resolve` — the place that a path denotes; `resolveFrom_append_slash` takes it apart at
  a slash.
* `overlay` — the files after some were written below a place; `overlay_eq_some_iff` says what
  is found where.

## Design notes

**Links.**  There are no symbolic links, so that `..` leads to the folder above.

**Paths.**  A path is a list of characters.  Empty components and `.` stay where they are, a
path that starts with a slash begins at the root, and any other one at the working directory.

**Names.**  Characters are compared as they are; there is no limit on the length of a component
and no case that is folded.

**Contents.**  They are of an arbitrary type: what a file holds is never looked at.
-/

namespace Library

universe u

/-- The names on the way from the root. -/
abbrev FileTree.Place := List (List Char)

/-- The content of the files, and the places that are directories. -/
structure FileTree (C : Type u) where
  content : FileTree.Place → Option C
  isDirectory : FileTree.Place → Bool

namespace FileTree

/-! ## Paths -/

/-- The place of a name in a folder. -/
def walk (folder : Place) (name : List Char) : Place :=
  if name = [] ∨ name = ['.'] then folder
  else if name = ['.', '.'] then folder.dropLast
  else folder ++ [name]

/-- The rest of a path from a folder, behind the beginning of a name in it. -/
def resolveFrom (folder : Place) (name : List Char) : List Char → Place
  | [] => walk folder name
  | c :: path =>
      if c = '/' then resolveFrom (walk folder name) [] path
      else resolveFrom folder (name ++ [c]) path

/-- The place that a path denotes for a process in the folder `cwd`. -/
def resolve (cwd : Place) (path : List Char) : Place :=
  resolveFrom (if path.head? = some '/' then [] else cwd) [] path

/-- The last name of a path. -/
def basename (path : List Char) : List Char :=
  ((path.reverse.dropWhile (· = '/')).takeWhile (· ≠ '/')).reverse

/-- A path may be followed part by part. -/
theorem resolveFrom_append_slash (folder : Place) (name path rest : List Char) :
    resolveFrom folder name (path ++ '/' :: rest) =
      resolveFrom (resolveFrom folder name path) [] rest := by
  induction path generalizing folder name with
  | nil => rfl
  | cons c path ih =>
      rw [List.cons_append, resolveFrom, resolveFrom]
      split
      · exact ih _ _
      · exact ih _ _

/-- A second slash changes nothing. -/
theorem resolve_append_slash_slash (cwd : Place) (path rest : List Char) :
    resolve cwd (path ++ '/' :: '/' :: rest) = resolve cwd (path ++ '/' :: rest) := by
  have hhead : (path ++ '/' :: '/' :: rest).head? = (path ++ '/' :: rest).head? := by
    cases path <;> rfl
  rw [resolve, resolve, hhead, resolveFrom_append_slash, resolveFrom_append_slash]
  rfl

/-! ## Writing files -/

variable {C : Type u}

/-- The files below a place, by their places relative to it. -/
def below (tree : FileTree C) (folder : Place) : Place → Option C :=
  fun place => tree.content (folder ++ place)

/-- What is found after the files were written below the target. -/
def overlay (target : Place) (files content : Place → Option C) : Place → Option C :=
  fun place =>
    if target <+: place then (files (place.drop target.length)).or (content place)
    else content place

/-- Below the target the files come first. -/
theorem overlay_append (target : Place) (files content : Place → Option C) (place : Place) :
    overlay target files content (target ++ place) =
      (files place).or (content (target ++ place)) := by
  rw [overlay, if_pos (List.prefix_append _ _), List.drop_left]

/-- A written file is found where it was written. -/
theorem overlay_append_of_eq_some {target : Place} {files : Place → Option C} {place : Place}
    {c : C} (h : files place = some c) (content : Place → Option C) :
    overlay target files content (target ++ place) = some c := by
  rw [overlay_append, h, Option.some_or]

/-- What is found is one of the files, or was there and is none of their places. -/
theorem overlay_eq_some_iff {target : Place} {files content : Place → Option C} {place : Place}
    {c : C} : overlay target files content place = some c ↔
      (∃ rest, place = target ++ rest ∧ files rest = some c) ∨
        (∀ rest, place = target ++ rest → files rest = none) ∧ content place = some c := by
  by_cases htarget : target <+: place
  · obtain ⟨rest, rfl⟩ := htarget
    simp only [overlay_append, List.append_cancel_left_eq, forall_eq', exists_eq_left',
      Option.or_eq_some_iff]
  · have hnone (rest : Place) : place ≠ target ++ rest :=
      fun heq => htarget (heq ▸ List.prefix_append target rest)
    simp [overlay, htarget, hnone]

end FileTree

end Library
