import Laborer.Library.LineTexts

/-!
# Pasted branch names

A line that reads as a branch name reaches git as it is. What is read is compared with the
rules of `git check-ref-format`: these refuse as well a name that ends in a dot, and one with a
component that begins with a dot.
-/

namespace Laborer.TaskCards

open Library List

/-! ## The reference format -/

/-- A character that git allows nowhere in a reference. -/
def isForbiddenInRef (c : Char) : Bool :=
  c.toNat < 0x20 || c.toNat = 0x7f || c ∈ [' ', '~', '^', ':', '?', '*', '[', backslash]

/-- The rules of `git check-ref-format` for a full name. -/
structure AcceptsRef (ref : List Char) : Prop where
  slash : '/' ∈ ref
  components : ∀ component ∈ ref.splitOn '/',
    component ≠ [] ∧ ¬['.'] <+: component ∧ ¬".lock".toList <:+ component
  characters : ∀ c ∈ ref, isForbiddenInRef c = false
  dots : ¬"..".toList <:+: ref
  brace : ¬"@\x7b".toList <:+: ref
  lastDot : ¬['.'] <:+ ref
  notAt : ref ≠ ['@']

/-! ## The source -/

def MAX_BRANCH_NAME_LENGTH : ℕ := 200

def isBranchNameCharacter (c : Char) : Bool :=
  c.isAlphanum || c ∈ ['.', '_', '-', '/', '+']

/-- `BRANCH_NAME_PATTERN.test` -/
def matchesBranchNamePattern : List Char → Bool
  | [] => false
  | c :: rest => c.isAlphanum && rest.all isBranchNameCharacter

def INVALID_REF_SEQUENCES : List (List Char) :=
  ["..".toList, "//".toList, "@\x7b".toList, ".lock/".toList]

/-- The candidate is empty, too long or has other characters than a branch name. -/
def ReadsAsTitle (candidate : String) : Prop :=
  jsLength candidate = 0 ∨ MAX_BRANCH_NAME_LENGTH < jsLength candidate ∨
    matchesBranchNamePattern candidate.toList = false

def EndsWrong (candidate : String) : Prop :=
  ['/'] <:+ candidate.toList ∨ ".lock".toList <:+ candidate.toList

def HasInvalidSequence (candidate : String) : Prop :=
  ∃ sequence ∈ INVALID_REF_SEQUENCES, sequence <:+: candidate.toList

instance (candidate : String) : Decidable (ReadsAsTitle candidate) :=
  inferInstanceAs (Decidable (_ ∨ _ ∨ _))

instance (candidate : String) : Decidable (EndsWrong candidate) :=
  inferInstanceAs (Decidable (_ ∨ _))

instance (candidate : String) : Decidable (HasInvalidSequence candidate) :=
  inferInstanceAs (Decidable (∃ sequence ∈ INVALID_REF_SEQUENCES, _))

def pastedBranchName (value : String) : Option String :=
  let candidate := jsTrim value
  if ReadsAsTitle candidate then none
  else if EndsWrong candidate then none
  else if HasInvalidSequence candidate then none
  else some candidate

/-! ## Characters -/

theorem toNat_lt_of_isBranchNameCharacter {c : Char} (h : isBranchNameCharacter c = true) :
    c.toNat < 128 := by
  simp only [isBranchNameCharacter, Bool.or_eq_true, decide_eq_true_eq] at h
  rcases h with h | h
  · exact toNat_lt_of_isAlphanum h
  · simp only [mem_cons, not_mem_nil, or_false] at h
    rcases h with rfl | rfl | rfl | rfl | rfl <;> decide

/-- The characters of branch names are ASCII, so what holds of them can be tried out. -/
theorem isBranchNameCharacter_facts {c : Char} (h : isBranchNameCharacter c = true) :
    isForbiddenInRef c = false ∧ isJsWhitespace c = false ∧ c ≠ '@' := by
  have hall : ∀ n : Fin 128, isBranchNameCharacter (Char.ofNat n) = true →
      isForbiddenInRef (Char.ofNat n) = false ∧ isJsWhitespace (Char.ofNat n) = false ∧
        Char.ofNat n ≠ '@' := by decide
  have hc := hall ⟨c.toNat, toNat_lt_of_isBranchNameCharacter h⟩
  simp only [Char.ofNat_toNat] at hc
  exact hc h

theorem matchesBranchNamePattern_cases {name : List Char}
    (h : matchesBranchNamePattern name = true) :
    (∃ c rest, name = c :: rest ∧ c.isAlphanum = true) ∧
      ∀ c ∈ name, isBranchNameCharacter c = true := by
  cases name with
  | nil => cases h
  | cons c rest =>
    simp only [matchesBranchNamePattern, Bool.and_eq_true, all_eq_true] at h
    refine ⟨⟨c, rest, rfl, h.1⟩, ?_⟩
    simp only [mem_cons, forall_eq_or_imp]
    exact ⟨by simp [isBranchNameCharacter, h.1], h.2⟩

/-- A name that matches the pattern has nothing to trim. -/
theorem jsTrim_of_matches {name : String} (h : matchesBranchNamePattern name.toList = true) :
    jsTrim name = name := by
  have hkeep : ∀ l : List Char, (∀ c ∈ l, isBranchNameCharacter c = true) →
      l.dropWhile isJsWhitespace = l := by
    intro l hl
    cases l with
    | nil => rfl
    | cons c l => simp [(isBranchNameCharacter_facts (hl c (by simp))).2.1]
  have hname := (matchesBranchNamePattern_cases h).2
  unfold jsTrim
  rw [hkeep _ hname, hkeep _ (by simpa using hname), reverse_reverse, String.ofList_toList]

theorem jsLength_pos_of_matches {name : String} (h : matchesBranchNamePattern name.toList = true) :
    jsLength name ≠ 0 := by
  obtain ⟨c, rest, hname, -⟩ := (matchesBranchNamePattern_cases h).1
  simp only [jsLength, hname, map_cons, sum_cons]
  split <;> omega

/-! ## What git accepts -/

/-- The name ends in a dot, or a component after the first begins with one. -/
def HasStrayDot (name : List Char) : Prop :=
  ['.'] <:+ name ∨ "/.".toList <:+: name

def fullRef (name : String) : List Char := "refs/heads/".toList ++ name.toList

theorem splitOn_fullRef (name : String) :
    (fullRef name).splitOn '/' = "refs".toList :: "heads".toList :: name.toList.splitOn '/' := by
  have hsplit : fullRef name = "refs".toList ++ '/' :: ("heads".toList ++ '/' :: name.toList) := rfl
  rw [hsplit, splitOn_append_cons, splitOn_append_cons, splitOn_of_not_mem (by decide),
    splitOn_of_not_mem (by decide)]
  rfl

/-- A word with none of the characters before the name occurs in the name alone. -/
theorem infix_of_infix_append {word before name : List Char} (hword : word ≠ [])
    (hother : ∀ c ∈ before, c ∉ word) (h : word <:+: before ++ name) : word <:+: name := by
  induction before with
  | nil => exact h
  | cons c before ih =>
    rcases infix_cons_iff.mp h with hprefix | hinfix
    · obtain ⟨d, rest, rfl⟩ := exists_cons_of_ne_nil hword
      have hhead := (cons_prefix_cons.mp hprefix).1
      exact absurd (by simp [hhead]) (hother c (by simp))
    · exact ih (fun d hd => hother d (by simp [hd])) hinfix

theorem acceptsRef_iff {name : String} (h : matchesBranchNamePattern name.toList = true) :
    AcceptsRef (fullRef name) ↔
      ¬EndsWrong name ∧ ¬HasInvalidSequence name ∧ ¬HasStrayDot name.toList := by
  obtain ⟨⟨first, rest, hname, hfirst⟩, hcharacters⟩ := matchesBranchNamePattern_cases h
  have hfull : name.toList <:+ fullRef name := suffix_append _ _
  constructor
  · intro haccepts
    have hcomponents : ∀ component ∈ name.toList.splitOn '/', component ≠ [] ∧
        ¬['.'] <+: component ∧ ¬".lock".toList <:+ component := by
      intro component hcomponent
      apply haccepts.components
      rw [splitOn_fullRef]
      simp [hcomponent]
    have hnil : [] ∉ name.toList.splitOn '/' := fun hmem => (hcomponents [] hmem).1 rfl
    have hlock : ∀ before after, name.toList = before ++ ".lock".toList ++ after →
        after = [] ∨ ['/'] <+: after → False := by
      intro before after heq hafter
      obtain ⟨component, hmem, hsuffix⟩ :=
        exists_suffix_splitOn (show '/' ∉ ".lock".toList by decide) before
      refine (hcomponents component ?_).2.2 hsuffix
      rcases hafter with rfl | ⟨after, rfl⟩
      · simpa [heq] using hmem
      · rw [heq, singleton_append, splitOn_append_cons]
        exact mem_append_left _ hmem
    refine ⟨?_, ?_, ?_⟩
    · rintro (⟨before, heq⟩ | ⟨before, heq⟩)
      · apply hnil
        rw [← heq, splitOn_append_cons]
        simp
      · exact hlock before [] (by rw [heq, append_nil]) (.inl rfl)
    · rintro ⟨sequence, hsequence, before, after, heq⟩
      simp only [INVALID_REF_SEQUENCES, mem_cons, not_mem_nil, or_false] at hsequence
      rcases hsequence with rfl | rfl | rfl | rfl
      · exact haccepts.dots (List.IsInfix.trans ⟨before, after, heq⟩ hfull.isInfix)
      · apply hnil
        have hslashes : name.toList = (before ++ '/' :: []) ++ '/' :: after := by
          simpa using heq.symm
        rw [hslashes, splitOn_append_cons, splitOn_append_cons]
        simp
      · exact haccepts.brace (List.IsInfix.trans ⟨before, after, heq⟩ hfull.isInfix)
      · exact hlock before ('/' :: after) (by simpa using heq.symm) (.inr (by simp))
    · rintro (hsuffix | ⟨before, after, heq⟩)
      · exact haccepts.lastDot (hsuffix.trans hfull)
      · have hdot : name.toList = before ++ '/' :: (['.'] ++ after) := by simpa using heq.symm
        obtain ⟨component, hmem, hprefix⟩ :=
          exists_prefix_splitOn (show '/' ∉ ['.'] by decide) after
        refine (hcomponents component ?_).2.1 hprefix
        rw [hdot, splitOn_append_cons]
        exact mem_append_right _ hmem
  · rintro ⟨hends, hsequences, hdots⟩
    have hclean : ∀ sequence ∈ INVALID_REF_SEQUENCES, ¬sequence <:+: name.toList :=
      fun sequence hmem hinfix => hsequences ⟨sequence, hmem, hinfix⟩
    have hslash : first ≠ '/' := by
      rintro rfl
      cases hfirst
    have hdot : first ≠ '.' := by
      rintro rfl
      cases hfirst
    refine ⟨mem_append_left _ (by decide), ?_, ?_, fun hinfix => ?_, fun hinfix => ?_,
      fun hsuffix => ?_, fun hat => ?_⟩
    · intro component hmem
      rw [splitOn_fullRef] at hmem
      rcases mem_cons.mp hmem with rfl | hmem
      · decide
      rcases mem_cons.mp hmem with rfl | hmem
      · decide
      obtain ⟨before, after, heq, hbefore, hafter⟩ := of_mem_splitOn hmem
      refine ⟨?_, ?_, ?_⟩
      · -- an empty component is an end at a slash, or between two
        rintro rfl
        rcases hbefore with rfl | ⟨before, rfl⟩ <;> rcases hafter with rfl | ⟨after, rfl⟩
        · simp [hname] at heq
        · simp [hname] at heq
          exact hslash heq.1
        · exact hends (.inl ⟨before, by simp [heq]⟩)
        · exact hclean "//".toList (by simp [INVALID_REF_SEQUENCES]) ⟨before, after, by simp [heq]⟩
      · rintro ⟨component, rfl⟩
        rcases hbefore with rfl | ⟨before, rfl⟩
        · simp [hname] at heq
          exact hdot heq.1
        · exact hdots (.inr ⟨before, component ++ after, by simp [heq]⟩)
      · rintro ⟨component, rfl⟩
        rcases hafter with rfl | ⟨after, rfl⟩
        · exact hends (.inr ⟨before ++ component, by simp [heq]⟩)
        · exact hclean ".lock/".toList (by simp [INVALID_REF_SEQUENCES])
            ⟨before ++ component, after, by simp [heq]⟩
    · intro c hc
      rcases mem_append.mp hc with hc | hc
      · have hprefix : ∀ c ∈ "refs/heads/".toList, isForbiddenInRef c = false := by
          simp [isForbiddenInRef, backslash]
        exact hprefix c hc
      · exact (isBranchNameCharacter_facts (hcharacters c hc)).1
    · exact hclean "..".toList (by simp [INVALID_REF_SEQUENCES])
        (infix_of_infix_append (by simp) (by simp) hinfix)
    · exact hclean "@\x7b".toList (by simp [INVALID_REF_SEQUENCES])
        (infix_of_infix_append (by simp) (by simp) hinfix)
    · refine hdots (.inl (suffix_of_suffix_length_le hsuffix hfull ?_))
      simp [hname]
    · have hhead : some 'r' = some '@' := congrArg List.head? hat
      exact absurd hhead (by decide)

/-! ## Exactly when git accepts what is read -/

theorem pastedBranchName_eq_some_iff {value name : String} :
    pastedBranchName value = some name ↔ name = jsTrim value ∧ ¬ReadsAsTitle (jsTrim value) ∧
      ¬EndsWrong (jsTrim value) ∧ ¬HasInvalidSequence (jsTrim value) := by
  unfold pastedBranchName
  dsimp only
  split_ifs with htitle hends hsequence
  · simp [htitle]
  · simp [hends]
  · simp [hsequence]
  · simp [htitle, hends, hsequence, eq_comm]

/-- What is read is the trimmed text and a name that git accepts, and a text that is such a
name, of the characters of the pattern and not too long, is read. -/
structure ReadsNames (value : String) : Prop where
  accepted : ∀ name, pastedBranchName value = some name →
    name = jsTrim value ∧ AcceptsRef (fullRef name)
  returned : AcceptsRef (fullRef value) → matchesBranchNamePattern value.toList = true →
    jsLength value ≤ MAX_BRANCH_NAME_LENGTH → pastedBranchName value = some value

/-- **A name is read that git refuses just when it has a stray dot** and nothing else wrong. -/
theorem readsNames_iff (value : String) :
    ReadsNames value ↔ (HasStrayDot (jsTrim value).toList → ReadsAsTitle (jsTrim value) ∨
      EndsWrong (jsTrim value) ∨ HasInvalidSequence (jsTrim value)) := by
  constructor
  · intro h hdot
    by_contra hread
    simp only [not_or] at hread
    have haccepts := (h.accepted _ (pastedBranchName_eq_some_iff.mpr ⟨rfl, hread⟩)).2
    have hmatches : matchesBranchNamePattern (jsTrim value).toList = true :=
      Bool.not_eq_false _ ▸ fun hfalse => hread.1 (.inr (.inr hfalse))
    exact ((acceptsRef_iff hmatches).mp haccepts).2.2 hdot
  · intro h
    refine ⟨fun name hname => ?_, fun haccepts hmatches hlength => ?_⟩
    · obtain ⟨rfl, htitle, hends, hsequence⟩ := pastedBranchName_eq_some_iff.mp hname
      have hmatches : matchesBranchNamePattern (jsTrim value).toList = true := by
        by_contra hfalse
        exact htitle (.inr (.inr (by simpa using hfalse)))
      refine ⟨rfl, (acceptsRef_iff hmatches).mpr ⟨hends, hsequence, fun hdot => ?_⟩⟩
      rcases h hdot with h | h | h
      · exact htitle h
      · exact hends h
      · exact hsequence h
    · obtain ⟨hends, hsequence, -⟩ := (acceptsRef_iff hmatches).mp haccepts
      rw [pastedBranchName_eq_some_iff, jsTrim_of_matches hmatches]
      refine ⟨rfl, ?_, hends, hsequence⟩
      rintro (hempty | hlong | hother)
      · exact jsLength_pos_of_matches hmatches hempty
      · exact absurd hlength (Nat.not_le_of_lt hlong)
      · rw [hmatches] at hother
        cases hother

/-- A name that ends in a dot is read, and git refuses it. -/
theorem lastDot_not_accepted : pastedBranchName "release." = some "release." ∧
    ¬AcceptsRef (fullRef "release.") := by
  refine ⟨?_, fun h => h.lastDot (by decide)⟩
  rw [pastedBranchName_eq_some_iff, jsTrim_of_matches (by decide)]
  decide

end Laborer.TaskCards
