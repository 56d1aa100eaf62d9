import Laborer.Library.OrderedMap
import Laborer.Library.Paths

/-!
# File systems with symbolic links

What a path leads to when the links on its way are followed: the location of a file is
where it stands once no link is left. The operating system's bounded walk is sound for
the relation `Leads`, which is deterministic and splits at every segment.
-/

namespace Laborer.Library

open AbsolutePath List

/-! ## Nodes and locations -/

/-- Where a node stands: the directories from the root, and its own name. -/
abbrev Location := List FileName

abbrev Segment := List Char

inductive FsNode where
  | file (contents : List UInt8)
  | link (target : List Char)
  | directory
  | socket
deriving DecidableEq

def FsNode.IsLink : FsNode → Prop
  | .link _ => True
  | _ => False

inductive Errno where
  | ENOENT
  | ENOTDIR
  | EISDIR
  | ELOOP
  | EOPNOTSUPP

/-- The nodes below the root directory, each in a directory. -/
structure FileSystem where
  nodes : OrderedMap Location FsNode
  nodup : (nodes.map Prod.fst).Nodup
  placed : ∀ entry ∈ nodes, entry.1 ≠ [] ∧
    (entry.1.dropLast = [] ∨ OrderedMap.get? nodes entry.1.dropLast = some .directory)

namespace FileSystem

variable (fs : FileSystem) {here location : Location} {todo : List Segment} {maxLinks : ℕ}
  {p : AbsolutePath} {name : FileName} {names : List FileName}

def node? (location : Location) : Option FsNode :=
  if location = [] then some .directory else OrderedMap.get? fs.nodes location

/-- Where the text of a link is read from, for a link in the directory `here`. -/
def linkStart (here : Location) (target : List Char) : Location :=
  if target.head? = some '/' then [] else here

def walkFrom (follow : Location → List Segment → Except Errno Location) :
    Location → List Segment → Except Errno Location
  | here, [] => .ok here
  | here, segment :: rest =>
    if fs.node? here ≠ some .directory then .error .ENOTDIR
    else if segment = ['.', '.'] then walkFrom follow here.dropLast rest
    else if h : IsFileName segment then
      match fs.node? (here ++ [⟨segment, h⟩]) with
      | none => .error .ENOENT
      | some (.link target) => follow (linkStart here target) (target.splitOn '/' ++ rest)
      | some _ => walkFrom follow (here ++ [⟨segment, h⟩]) rest
    -- an empty segment or a dot
    else walkFrom follow here rest

/-- The walk that follows at most the given number of links. -/
def walk : ℕ → Location → List Segment → Except Errno Location
  | 0 => fs.walkFrom fun _ _ => .error .ELOOP
  | links + 1 => fs.walkFrom (walk links)

def segments (names : List FileName) : List Segment :=
  names.map Subtype.val

def realpath (maxLinks : ℕ) (p : AbsolutePath) : Except Errno Location :=
  fs.walk maxLinks [] (segments p.names)

structure OpenedFile where
  location : Location
  contents : List UInt8

def fileAt (location : Location) : Except Errno OpenedFile :=
  match fs.node? location with
  | some (.file contents) => .ok ⟨location, contents⟩
  | some .directory => .error .EISDIR
  | some .socket => .error .EOPNOTSUPP
  | some (.link _) | none => .error .ENOENT

def readFile (maxLinks : ℕ) (p : AbsolutePath) : Except Errno OpenedFile :=
  (fs.realpath maxLinks p).bind fs.fileAt

/-- An entry of a directory, with the node it names and not what a link leads to. -/
structure Dirent where
  name : FileName
  node : FsNode

def direntOf (location : Location) (entry : Location × FsNode) : Option Dirent :=
  match entry.1.getLast? with
  | none => none
  | some name => if entry.1.dropLast = location then some ⟨name, entry.2⟩ else none

def direntsAt (location : Location) : List Dirent :=
  fs.nodes.filterMap (direntOf location)

structure OpenedDirectory where
  location : Location
  dirents : List Dirent

def directoryAt (location : Location) : Except Errno OpenedDirectory :=
  if fs.node? location = some .directory then .ok ⟨location, fs.direntsAt location⟩
  else .error .ENOTDIR

def readdir (maxLinks : ℕ) (p : AbsolutePath) : Except Errno OpenedDirectory :=
  (fs.realpath maxLinks p).bind fs.directoryAt

/-! ## What segments lead to -/

/-- From the directory `here` the segments lead to the location, through any number of links. -/
inductive Leads : Location → List Segment → Location → Prop
  | done (here : Location) : Leads here [] here
  | parent {here : Location} {rest : List Segment} {location : Location}
      (hdirectory : fs.node? here = some .directory) (hrest : Leads here.dropLast rest location) :
      Leads here (['.', '.'] :: rest) location
  | stay {here : Location} {segment : Segment} {rest : List Segment} {location : Location}
      (hdirectory : fs.node? here = some .directory) (hsegment : segment ≠ ['.', '.'])
      (hname : ¬ IsFileName segment) (hrest : Leads here rest location) :
      Leads here (segment :: rest) location
  | enter {here : Location} {name : FileName} {node : FsNode} {rest : List Segment}
      {location : Location} (hdirectory : fs.node? here = some .directory)
      (hnode : fs.node? (here ++ [name]) = some node) (hlink : ¬ node.IsLink)
      (hrest : Leads (here ++ [name]) rest location) :
      Leads here (name.val :: rest) location
  | follow {here : Location} {name : FileName} {target : List Char} {rest : List Segment}
      {location : Location} (hdirectory : fs.node? here = some .directory)
      (hnode : fs.node? (here ++ [name]) = some (.link target))
      (hrest : Leads (linkStart here target) (target.splitOn '/' ++ rest) location) :
      Leads here (name.val :: rest) location

variable {fs}

theorem walkFrom_leads {follow : Location → List Segment → Except Errno Location}
    (hfollow : ∀ here todo location, follow here todo = .ok location → fs.Leads here todo location)
    (h : fs.walkFrom follow here todo = .ok location) : fs.Leads here todo location := by
  induction todo generalizing here with
  | nil =>
    cases h
    exact .done _
  | cons segment rest ih =>
    rw [walkFrom] at h
    by_cases hdirectory : fs.node? here = some .directory
    · rw [if_neg (not_not_intro hdirectory)] at h
      by_cases hsegment : segment = ['.', '.']
      · rw [if_pos hsegment] at h
        subst hsegment
        exact .parent hdirectory (ih h)
      rw [if_neg hsegment] at h
      by_cases hname : IsFileName segment
      · rw [dif_pos hname] at h
        -- a link hands the rest of the walk over, any other node is entered
        cases hnode : fs.node? (here ++ [⟨segment, hname⟩]) with
        | none =>
          rw [hnode] at h
          cases h
        | some node =>
          rw [hnode] at h
          obtain ⟨name, rfl⟩ : ∃ name : FileName, name.val = segment := ⟨⟨segment, hname⟩, rfl⟩
          cases node with
          | link target => exact .follow hdirectory hnode (hfollow _ _ _ h)
          | _ => exact .enter hdirectory hnode id (ih h)
      · rw [dif_neg hname] at h
        exact .stay hdirectory hsegment hname (ih h)
    · rw [if_pos hdirectory] at h
      cases h

/-- **The bounded walk arrives only where the segments lead.** -/
theorem walk_leads (links : ℕ)
    (h : fs.walk links here todo = .ok location) : fs.Leads here todo location := by
  induction links generalizing here todo location with
  | zero =>
    apply walkFrom_leads (fun _ _ _ hstop => ?_) h
    cases hstop
  | succ links ih => exact walkFrom_leads (fun _ _ _ hrest => ih hrest) h

theorem realpath_leads
    (h : fs.realpath maxLinks p = .ok location) : fs.Leads [] (segments p.names) location :=
  walk_leads maxLinks h

theorem not_isFileName_parent : ¬ IsFileName ['.', '.'] := by
  simp [IsFileName]

theorem Leads.parent_rest {rest : List Segment} (h : fs.Leads here (['.', '.'] :: rest) location) :
    fs.Leads here.dropLast rest location := by
  generalize htodo : ['.', '.'] :: rest = todo at h
  cases h with
  | done => cases htodo
  | parent _ hrest =>
    cases htodo
    exact hrest
  | stay _ hsegment =>
    cases htodo
    exact absurd rfl hsegment
  | enter =>
    obtain ⟨hname, -⟩ := List.cons.inj htodo
    exact absurd (hname ▸ Subtype.property _) not_isFileName_parent
  | follow =>
    obtain ⟨hname, -⟩ := List.cons.inj htodo
    exact absurd (hname ▸ Subtype.property _) not_isFileName_parent

theorem Leads.name_cases {rest : List Segment} (h : fs.Leads here (name.val :: rest) location) :
    fs.node? here = some .directory ∧
      ((∃ node, fs.node? (here ++ [name]) = some node ∧ ¬ node.IsLink ∧
          fs.Leads (here ++ [name]) rest location) ∨
        ∃ target, fs.node? (here ++ [name]) = some (.link target) ∧
          fs.Leads (linkStart here target) (target.splitOn '/' ++ rest) location) := by
  generalize htodo : name.val :: rest = todo at h
  cases h with
  | done => cases htodo
  | parent =>
    obtain ⟨hname, -⟩ := List.cons.inj htodo
    exact absurd (hname ▸ name.property) not_isFileName_parent
  | stay _ _ hnot =>
    obtain ⟨hname, -⟩ := List.cons.inj htodo
    exact absurd (hname ▸ name.property) hnot
  | enter hdirectory hnode hlink hrest =>
    obtain ⟨hname, rfl⟩ := List.cons.inj htodo
    cases Subtype.ext hname
    exact ⟨hdirectory, .inl ⟨_, hnode, hlink, hrest⟩⟩
  | follow hdirectory hnode hrest =>
    obtain ⟨hname, rfl⟩ := List.cons.inj htodo
    cases Subtype.ext hname
    exact ⟨hdirectory, .inr ⟨_, hnode, hrest⟩⟩

theorem not_isLink_of_eq_link {node : FsNode} {target : List Char} (hlink : ¬ node.IsLink)
    (h : some node = some (.link target)) : False := by
  cases h
  exact hlink trivial

/-- **Segments lead to one location at most.** -/
theorem Leads.unique {other : Location}
    (h : fs.Leads here todo location) (hother : fs.Leads here todo other) : location = other := by
  induction h with
  | done here =>
    cases hother
    rfl
  | parent hdirectory _ ih => exact ih hother.parent_rest
  | stay hdirectory hsegment hname _ ih =>
    cases hother with
    | parent => exact absurd rfl hsegment
    | stay _ _ _ hrest => exact ih hrest
    | enter => exact absurd (Subtype.property _) hname
    | follow => exact absurd (Subtype.property _) hname
  | enter hdirectory hnode hlink _ ih =>
    obtain ⟨-, ⟨_, _, _, hrest⟩ | ⟨target, htarget, _⟩⟩ := hother.name_cases
    · exact ih hrest
    · exact (not_isLink_of_eq_link hlink (hnode.symm.trans htarget)).elim
  | follow hdirectory hnode _ ih =>
    obtain ⟨-, ⟨node, hentered, hplain, _⟩ | ⟨target, htarget, hrest⟩⟩ := hother.name_cases
    · exact (not_isLink_of_eq_link hplain (hentered.symm.trans hnode)).elim
    · cases hnode.symm.trans htarget
      exact ih hrest

/-- What follows a stretch of segments is read from where the stretch leads. -/
theorem Leads.split {before after : List Segment} (h : fs.Leads here (before ++ after) location) :
    ∃ middle, fs.Leads here before middle ∧ fs.Leads middle after location := by
  generalize htodo : before ++ after = todo at h
  induction h generalizing before with
  | done here =>
    obtain ⟨rfl, rfl⟩ := append_eq_nil_iff.mp htodo
    exact ⟨here, .done here, .done here⟩
  | @parent here rest location hdirectory hrest ih =>
    cases before with
    | nil =>
      cases htodo
      exact ⟨here, .done here, .parent hdirectory hrest⟩
    | cons segment before =>
      obtain ⟨rfl, rfl⟩ := List.cons.inj htodo
      obtain ⟨middle, hbefore, hafter⟩ := ih rfl
      exact ⟨middle, .parent hdirectory hbefore, hafter⟩
  | @stay here segment rest location hdirectory hsegment hname hrest ih =>
    cases before with
    | nil =>
      cases htodo
      exact ⟨here, .done here, .stay hdirectory hsegment hname hrest⟩
    | cons segment before =>
      obtain ⟨rfl, rfl⟩ := List.cons.inj htodo
      obtain ⟨middle, hbefore, hafter⟩ := ih rfl
      exact ⟨middle, .stay hdirectory hsegment hname hbefore, hafter⟩
  | @enter here name node rest location hdirectory hnode hlink hrest ih =>
    cases before with
    | nil =>
      cases htodo
      exact ⟨here, .done here, .enter hdirectory hnode hlink hrest⟩
    | cons segment before =>
      obtain ⟨rfl, rfl⟩ := List.cons.inj htodo
      obtain ⟨middle, hbefore, hafter⟩ := ih rfl
      exact ⟨middle, .enter hdirectory hnode hlink hbefore, hafter⟩
  | @follow here name target rest location hdirectory hnode hrest ih =>
    cases before with
    | nil =>
      cases htodo
      exact ⟨here, .done here, .follow hdirectory hnode hrest⟩
    | cons segment before =>
      obtain ⟨rfl, rfl⟩ := List.cons.inj htodo
      -- the text of the link stands before what was left of the stretch
      obtain ⟨middle, hbefore, hafter⟩ := ih (append_assoc ..)
      exact ⟨middle, .follow hdirectory hnode hbefore, hafter⟩

/-! ## Where nodes stand -/

/-- Every directory above the location is one, and the location is no link. -/
structure Stands (fs : FileSystem) (location : Location) : Prop where
  above : ∀ {upper : Location} {name : FileName}, upper ++ [name] <+: location →
    fs.node? upper = some .directory
  entered : ∀ {upper : Location}, upper <+: location →
    ∃ node, fs.node? upper = some node ∧ ¬ node.IsLink

theorem stands_nil : fs.Stands [] where
  above h := by simp at h
  entered h := ⟨.directory, by rw [List.prefix_nil.mp h]; rfl, id⟩

theorem Stands.dropLast (h : fs.Stands location) : fs.Stands location.dropLast where
  above hupper := h.above (hupper.trans (List.dropLast_prefix location))
  entered hupper := h.entered (hupper.trans (List.dropLast_prefix location))

theorem prefix_concat_cases {upper : Location}
    (h : upper <+: location ++ [name]) : upper <+: location ∨ upper = location ++ [name] := by
  rw [prefix_concat_iff] at h
  exact h.symm

theorem Stands.enter (h : fs.Stands here) {node : FsNode}
    (hdirectory : fs.node? here = some .directory)
    (hnode : fs.node? (here ++ [name]) = some node) (hlink : ¬ node.IsLink) :
    fs.Stands (here ++ [name]) where
  above := by
    intro upper other hupper
    rcases prefix_concat_cases hupper with hupper | hupper
    · exact h.above hupper
    · obtain ⟨rfl, -⟩ := append_inj' hupper rfl
      exact hdirectory
  entered := by
    intro upper hupper
    rcases prefix_concat_cases hupper with hupper | rfl
    · exact h.entered hupper
    · exact ⟨node, hnode, hlink⟩

theorem Stands.linkStart (h : fs.Stands here) (target : List Char) :
    fs.Stands (linkStart here target) := by
  rw [FileSystem.linkStart]
  split
  · exact stands_nil
  · exact h

theorem Leads.stands
    (h : fs.Leads here todo location) (hhere : fs.Stands here) : fs.Stands location := by
  induction h with
  | done => exact hhere
  | parent _ _ ih => exact ih hhere.dropLast
  | stay _ _ _ _ ih => exact ih hhere
  | enter hdirectory hnode hlink _ ih => exact ih (hhere.enter hdirectory hnode hlink)
  | follow _ _ _ ih => exact ih (hhere.linkStart _)

/-- No link stands on the way of the names from the directory. -/
def Direct (fs : FileSystem) (here : Location) (names : List FileName) : Prop :=
  ∀ passed, passed ≠ [] → passed <+: names → ∀ target,
    fs.node? (here ++ passed) ≠ some (.link target)

theorem Direct.tail (h : fs.Direct here (name :: names)) : fs.Direct (here ++ [name]) names := by
  intro passed _ hpassed target
  rw [append_assoc]
  exact h (name :: passed) (cons_ne_nil _ _) (cons_prefix_cons.mpr ⟨rfl, hpassed⟩) target

/-- **Names with no link on their way lead to the entry they spell.** -/
theorem Leads.of_direct
    (h : fs.Leads here (segments names) location) (hdirect : fs.Direct here names) :
    location = here ++ names := by
  induction names generalizing here with
  | nil =>
    cases h
    exact (append_nil _).symm
  | cons name names ih =>
    obtain ⟨-, ⟨_, _, _, hrest⟩ | ⟨target, htarget, _⟩⟩ := Leads.name_cases h
    · rw [ih hrest hdirect.tail, append_assoc]
      rfl
    · have hplain := hdirect [name] (cons_ne_nil _ _) (prefix_append [name] names) target
      exact absurd htarget hplain

theorem walkFrom_segments {follow : Location → List Segment → Except Errno Location}
    (h : fs.Stands (here ++ names)) :
    fs.walkFrom follow here (segments names) = .ok (here ++ names) := by
  induction names generalizing here with
  | nil =>
    rw [append_nil]
    rfl
  | cons name names ih =>
    have hsplit : here ++ name :: names = (here ++ [name]) ++ names := by
      rw [append_assoc]
      rfl
    have hprefix : here ++ [name] <+: here ++ name :: names := by
      rw [hsplit]
      exact prefix_append _ _
    obtain ⟨node, hnode, hlink⟩ := h.entered hprefix
    have hname : name.val ≠ ['.', '.'] := name.property.2.2.2
    change fs.walkFrom follow here (name.val :: segments names) = _
    rw [walkFrom, if_neg (not_not_intro (h.above hprefix)), if_neg hname, dif_pos name.property]
    have hrest := ih (hsplit ▸ h)
    rw [hsplit]
    cases node with
    | link target => exact absurd trivial hlink
    | _ => exact (by rw [hnode]; exact hrest)

/-- **A location already resolved is its own.** -/
theorem realpath_of_stands (maxLinks : ℕ) (h : fs.Stands location) :
    fs.realpath maxLinks ⟨location⟩ = .ok location := by
  rw [realpath]
  cases maxLinks with
  | zero => exact walkFrom_segments h
  | succ links => exact walkFrom_segments h

theorem stands_of_realpath (h : fs.realpath maxLinks p = .ok location) : fs.Stands location :=
  (realpath_leads h).stands stands_nil

/-! ## Files and directories opened -/

theorem fileAt_eq_ok {opened : OpenedFile} (h : fs.fileAt location = .ok opened) :
    opened.location = location ∧ fs.node? location = some (.file opened.contents) := by
  rw [fileAt] at h
  cases hnode : fs.node? location with
  | none =>
    rw [hnode] at h
    cases h
  | some node =>
    rw [hnode] at h
    cases node with
    | file contents =>
      cases h
      exact ⟨rfl, rfl⟩
    | _ => cases h

theorem readFile_eq_ok {opened : OpenedFile} (h : fs.readFile maxLinks p = .ok opened) :
    fs.realpath maxLinks p = .ok opened.location ∧
      fs.node? opened.location = some (.file opened.contents) := by
  rw [readFile] at h
  cases hreal : fs.realpath maxLinks p with
  | error e =>
    rw [hreal] at h
    cases h
  | ok location =>
    rw [hreal] at h
    obtain ⟨rfl, hnode⟩ := fileAt_eq_ok h
    exact ⟨rfl, hnode⟩

theorem readdir_eq_ok {opened : OpenedDirectory} (h : fs.readdir maxLinks p = .ok opened) :
    fs.realpath maxLinks p = .ok opened.location ∧ fs.node? opened.location = some .directory ∧
      opened.dirents = fs.direntsAt opened.location := by
  rw [readdir] at h
  cases hreal : fs.realpath maxLinks p with
  | error e =>
    rw [hreal] at h
    cases h
  | ok location =>
    rw [hreal] at h
    change fs.directoryAt location = .ok opened at h
    rw [directoryAt] at h
    split at h
    · next hdirectory =>
      cases h
      exact ⟨rfl, hdirectory, rfl⟩
    · cases h

theorem node?_of_mem_direntsAt {dirent : Dirent} (h : dirent ∈ fs.direntsAt location) :
    fs.node? (location ++ [dirent.name]) = some dirent.node := by
  obtain ⟨⟨place, node⟩, hmem, hentry⟩ := mem_filterMap.mp h
  rw [direntOf] at hentry
  cases hlast : place.getLast? with
  | none =>
    rw [hlast] at hentry
    cases hentry
  | some name =>
    rw [hlast] at hentry
    dsimp only at hentry
    by_cases hlocation : place.dropLast = location
    · rw [if_pos hlocation] at hentry
      cases hentry
      have hplace : place = location ++ [name] := by
        rw [← hlocation]
        exact (dropLast_append_getLast? name hlast).symm
      rw [node?, if_neg (by simp), ← hplace]
      exact OrderedMap.get?_of_mem fs.nodup hmem
    · rw [if_neg hlocation] at hentry
      cases hentry

end FileSystem

end Laborer.Library
