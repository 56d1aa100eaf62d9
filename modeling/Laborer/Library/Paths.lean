import Mathlib.Data.List.Infix

/-!
# Paths

Absolute paths as lists of names, the text they are written as, and a tree of files
and directories with the commands that make and remove directories in it.
-/

namespace Laborer.Library

open List

/-! ## Names and paths -/

/-- A segment of a path that names an entry of a directory. -/
def IsFileName (segment : List Char) : Prop :=
  segment ≠ [] ∧ '/' ∉ segment ∧ segment ≠ ['.'] ∧ segment ≠ ['.', '.']

instance (segment : List Char) : Decidable (IsFileName segment) :=
  inferInstanceAs (Decidable (_ ∧ _))

abbrev FileName := { segment : List Char // IsFileName segment }

/-- A path from the root, with nothing left to resolve in it. -/
structure AbsolutePath where
  names : List FileName
deriving DecidableEq

namespace AbsolutePath

def joined : List FileName → List Char
  | [] => []
  | [name] => name.val
  | name :: other :: rest => name.val ++ '/' :: joined (other :: rest)

def text (p : AbsolutePath) : List Char :=
  '/' :: joined p.names

def resolveSegment (names : List FileName) (segment : List Char) : List FileName :=
  if segment = ['.', '.'] then names.dropLast
  else if h : IsFileName segment then names ++ [⟨segment, h⟩]
  -- an empty segment or a dot
  else names

def resolve (text : List Char) : AbsolutePath where
  names := (text.splitOn '/').foldl resolveSegment []

/-- `path.join(p, segment)`. -/
def join (p : AbsolutePath) (segment : List Char) : AbsolutePath :=
  resolve (p.text ++ '/' :: segment)

def Contains (p q : AbsolutePath) : Prop :=
  p.names <+: q.names

instance (p q : AbsolutePath) : Decidable (p.Contains q) :=
  inferInstanceAs (Decidable (_ <+: _))

def StrictlyContains (p q : AbsolutePath) : Prop :=
  p.Contains q ∧ p ≠ q

@[ext]
theorem ext_names {p q : AbsolutePath} (h : p.names = q.names) : p = q := by
  cases p
  cases q
  cases h
  rfl

@[simp]
theorem contains_refl (p : AbsolutePath) : p.Contains p :=
  prefix_rfl

theorem Contains.trans {p q r : AbsolutePath} (hpq : p.Contains q) (hqr : q.Contains r) :
    p.Contains r :=
  List.IsPrefix.trans hpq hqr

/-! ## Reading what was written -/

@[simp]
theorem resolveSegment_nil (names : List FileName) : resolveSegment names [] = names := by
  simp [resolveSegment, IsFileName]

@[simp]
theorem resolveSegment_name (names : List FileName) (name : FileName) :
    resolveSegment names name.val = names ++ [name] := by
  have hname := name.property
  simp [resolveSegment, hname, hname.2.2.2]

theorem splitOn_append_slash (a b : List Char) :
    (a ++ '/' :: b).splitOn '/' = a.splitOn '/' ++ b.splitOn '/' :=
  splitOnP_append_cons a b (by simp)

theorem splitOn_name (name : FileName) : name.val.splitOn '/' = [name.val] := by
  apply splitOnP_eq_singleton
  intro c hc
  have hslash := name.property.2.1
  simp only [beq_eq_false_iff_ne]
  rintro rfl
  exact hslash hc

theorem resolve_append_slash (a b : List Char) :
    (resolve (a ++ '/' :: b)).names = (b.splitOn '/').foldl resolveSegment (resolve a).names := by
  simp [resolve, splitOn_append_slash]

theorem foldl_splitOn_joined (before names : List FileName) :
    ((joined names).splitOn '/').foldl resolveSegment before = before ++ names := by
  induction names generalizing before with
  | nil => simp [joined]
  | cons name names ih =>
    cases names with
    | nil => simp [joined, splitOn_name]
    | cons other rest =>
      rw [joined, splitOn_append_slash, splitOn_name, foldl_append, ih]
      simp

/-- **A path is read back from its text.** -/
theorem resolve_text (p : AbsolutePath) : resolve p.text = p := by
  apply ext_names
  have h := resolve_append_slash [] (joined p.names)
  rw [nil_append, foldl_splitOn_joined] at h
  rw [text, h]
  simp [resolve]

theorem text_injective {p q : AbsolutePath} (h : p.text = q.text) : p = q := by
  rw [← resolve_text p, ← resolve_text q, h]

theorem join_nil (p : AbsolutePath) : p.join [] = p := by
  apply ext_names
  simp [join, resolve_append_slash, resolve_text]

theorem join_name (p : AbsolutePath) (name : FileName) :
    (p.join name.val).names = p.names ++ [name] := by
  simp [join, resolve_append_slash, resolve_text, splitOn_name]

theorem strictlyContains_join_name (p : AbsolutePath) (name : FileName) :
    p.StrictlyContains (p.join name.val) := by
  refine ⟨?_, fun h => ?_⟩
  · rw [Contains, join_name]
    exact prefix_append _ _
  · have hlength := congrArg (fun q : AbsolutePath => q.names.length) h
    simp [join_name] at hlength

end AbsolutePath

/-! ## Trees of files -/

/-- What exists, with the directories above it. -/
structure FileTree where
  present : AbsolutePath → Bool
  closed : ∀ {p q : AbsolutePath}, p.Contains q → present q → present p

namespace FileTree

/-- `mkdir -p`. -/
def makeDirectories (tree : FileTree) (p : AbsolutePath) : FileTree where
  present q := tree.present q || decide (q.Contains p)
  closed := by
    intro q r hqr hr
    rw [Bool.or_eq_true, decide_eq_true_iff] at hr ⊢
    exact hr.imp (tree.closed hqr) hqr.trans

/-- `rm -rf`. -/
def removeRecursively (tree : FileTree) (p : AbsolutePath) : FileTree where
  present q := tree.present q && !decide (p.Contains q)
  closed := by
    intro q r hqr hr
    simp only [Bool.and_eq_true, Bool.not_eq_true', decide_eq_false_iff_not] at hr ⊢
    exact ⟨tree.closed hqr hr.1, fun hp => hr.2 (hp.trans hqr)⟩

@[simp]
theorem present_makeDirectories (tree : FileTree) (p q : AbsolutePath) :
    (tree.makeDirectories p).present q ↔ tree.present q ∨ q.Contains p := by
  simp [makeDirectories]

end FileTree

end Laborer.Library
