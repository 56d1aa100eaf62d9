import Laborer.ChatPlane.ConversationHandler
import Laborer.Library.Decimals

/-!
# The history before an activation

The messages before the one that activated the bot: of the channel, newest first, for an
activation that starts a thread, and else of the thread, oldest first, where the reading ends at
the first message that is not earlier. Messages with Slack ids are compared by these, others by
the time they were sent at.
-/

namespace Laborer.ChatPlane

open Library List

/-- A message as the history has it; there is no time where the date is invalid. -/
structure HistoryMessage where
  author : ChatSdkAuthor
  id : String
  sentAt : Option ℤ
  text : String
deriving DecidableEq

inductive HistoryError where
  | activationTimestamp
  | scanLimit
  | messageTimestamp
deriving DecidableEq

def MAX_HISTORY_MESSAGES_SCANNED : ℕ := 1000

def ROOT_HISTORY_MESSAGE_LIMIT : ℕ := 10

def isEligibleAuthoredText (message : HistoryMessage) : Bool :=
  !message.author.isMe && !message.author.isSystem && jsTrim message.text ≠ ""

/-- `\d{1,20}` -/
def isIdPart (digits : List Char) : Bool :=
  1 ≤ digits.length && digits.length ≤ 20 && digits.all Char.isDigit

/-- `SLACK_MESSAGE_ID.exec` -/
def slackMessageId (id : String) : Option (List Char × List Char) :=
  match id.toList.splitOn '.' with
  | [seconds, fraction] =>
    if isIdPart seconds && isIdPart fraction then some (seconds, fraction) else none
  | _ => none

/-- `digits.padEnd(precision, '0')` -/
def padEnd (digits : List Char) (precision : ℕ) : List Char :=
  digits ++ List.replicate (precision - digits.length) '0'

def isBeforeActivation (message activation : HistoryMessage) (activationTime : ℤ) : Bool :=
  match slackMessageId message.id, slackMessageId activation.id with
  | some (messageSeconds, messageFraction), some (activationSeconds, activationFraction) =>
    if decimalValue messageSeconds ≠ decimalValue activationSeconds then
      decimalValue messageSeconds < decimalValue activationSeconds
    else
      let precision := max messageFraction.length activationFraction.length
      decimalValue (padEnd messageFraction precision) <
        decimalValue (padEnd activationFraction precision)
  | _, _ => message.sentAt.any (· < activationTime)

section Source

variable (isRootActivation : Bool) (activation : HistoryMessage) (activationTime : ℤ)

def scan : List HistoryMessage → ℕ → List HistoryMessage → Except HistoryError (List HistoryMessage)
  | [], _, collected => .ok collected
  | message :: rest, scanned, collected =>
    if MAX_HISTORY_MESSAGES_SCANNED < scanned + 1 then .error .scanLimit
    else if message.sentAt = none then .error .messageTimestamp
    else if message.id = activation.id ∨ !isBeforeActivation message activation activationTime then
      if isRootActivation then scan rest (scanned + 1) collected else .ok collected
    else if isEligibleAuthoredText message then
      if isRootActivation && (collected ++ [message]).length = ROOT_HISTORY_MESSAGE_LIMIT then
        .ok (collected ++ [message])
      else scan rest (scanned + 1) (collected ++ [message])
    else scan rest (scanned + 1) collected

end Source

def collectActivationHistory (rootMessageId : String)
    (channelMessages allMessages : List HistoryMessage) (activation : HistoryMessage) :
    Except HistoryError (List HistoryMessage) :=
  match activation.sentAt with
  | none => .error .activationTimestamp
  | some activationTime =>
    if rootMessageId = activation.id then
      (scan true activation activationTime channelMessages 0 []).map List.reverse
    else scan false activation activationTime allMessages 0 []

/-! ## The order of the messages -/

/-- The place of a Slack id: its seconds, and its fraction to twenty digits. -/
def stamp (message : HistoryMessage) : Option (ℕ × ℕ) :=
  (slackMessageId message.id).map fun parts =>
    (decimalValue parts.1, decimalValue parts.2 * 10 ^ (20 - parts.2.length))

def Before (x y : HistoryMessage) : Prop :=
  ∃ time, y.sentAt = some time ∧ isBeforeActivation x y time = true

theorem decimalValue_padEnd (digits : List Char) (precision : ℕ) :
    decimalValue (padEnd digits precision) =
      decimalValue digits * 10 ^ (precision - digits.length) := by
  unfold padEnd
  induction precision - digits.length with
  | zero => simp
  | succ k ih =>
    rw [replicate_succ', ← append_assoc, decimalValue_append, ih, Nat.sub_self, pow_succ]
    ring

theorem length_of_slackMessageId {id : String} {parts : List Char × List Char}
    (h : slackMessageId id = some parts) : parts.2.length ≤ 20 := by
  unfold slackMessageId at h
  split at h
  · split at h
    · next hparts =>
      cases h
      simp only [isIdPart, Bool.and_eq_true, decide_eq_true_eq] at hparts
      exact hparts.2.1.2
    · cases h
  · cases h

/-- Slack ids are compared by their places, to any precision. -/
theorem isBeforeActivation_of_stamps {x y : HistoryMessage} {p q : ℕ × ℕ} {time : ℤ}
    (hx : stamp x = some p) (hy : stamp y = some q) :
    isBeforeActivation x y time = true ↔ p.1 < q.1 ∨ p.1 = q.1 ∧ p.2 < q.2 := by
  obtain ⟨xs, hxs, rfl⟩ := Option.map_eq_some_iff.mp hx
  obtain ⟨ys, hys, rfl⟩ := Option.map_eq_some_iff.mp hy
  have hxlength := length_of_slackMessageId hxs
  have hylength := length_of_slackMessageId hys
  have hscale : ∀ parts : List Char × List Char, parts.2.length ≤ max xs.2.length ys.2.length →
      decimalValue parts.2 * 10 ^ (20 - parts.2.length) =
        decimalValue (padEnd parts.2 (max xs.2.length ys.2.length)) *
          10 ^ (20 - max xs.2.length ys.2.length) := by
    intro parts hle
    rw [decimalValue_padEnd, mul_assoc, ← pow_add]
    congr 2
    omega
  unfold isBeforeActivation
  rw [hxs, hys]
  dsimp only
  rw [hscale xs (le_max_left _ _), hscale ys (le_max_right _ _),
    Nat.mul_lt_mul_right (by positivity)]
  split
  · next hne => simp [hne]
  · next heq =>
    rw [not_not] at heq
    simp [heq]

theorem isBeforeActivation_of_none {x y : HistoryMessage} {time : ℤ}
    (h : stamp x = none ∨ stamp y = none) :
    isBeforeActivation x y time = x.sentAt.any (· < time) := by
  simp only [stamp, Option.map_eq_none_iff] at h
  unfold isBeforeActivation
  split
  · next hx hy =>
    rcases h with h | h
    · rw [h] at hx
      cases hx
    · rw [h] at hy
      cases hy
  · rfl

/-- The times agree with the Slack ids: what has no greater id is sent no later. -/
def DatesAgree (messages : List HistoryMessage) : Prop :=
  ∀ x ∈ messages, ∀ y ∈ messages, ∀ p q, stamp x = some p → stamp y = some q →
    (p.1 < q.1 ∨ p.1 = q.1 ∧ p.2 ≤ q.2) → ∀ s ∈ x.sentAt, ∀ t ∈ y.sentAt, s ≤ t

instance (messages : List HistoryMessage) : Decidable (DatesAgree messages) :=
  decidable_of_iff (∀ x ∈ messages, ∀ y ∈ messages, ∀ p ∈ stamp x, ∀ q ∈ stamp y,
      (p.1 < q.1 ∨ p.1 = q.1 ∧ p.2 ≤ q.2) → ∀ s ∈ x.sentAt, ∀ t ∈ y.sentAt, s ≤ t)
    ⟨fun h x hx y hy p q hp hq => h x hx y hy p hp q hq,
      fun h x hx y hy p hp q hq => h x hx y hy p q hp hq⟩

/-- No message is before itself, and what is before another is before all that this is before. -/
def IsStrictOrder (messages : List HistoryMessage) : Prop :=
  (∀ x, ¬Before x x) ∧ ∀ x ∈ messages, ∀ y ∈ messages, ∀ z ∈ messages,
    x.sentAt ≠ none → Before x y → Before y z → Before x z

theorem before_of_stamps {x y : HistoryMessage} {p q : ℕ × ℕ} (hx : stamp x = some p)
    (hy : stamp y = some q) :
    Before x y ↔ y.sentAt ≠ none ∧ (p.1 < q.1 ∨ p.1 = q.1 ∧ p.2 < q.2) := by
  unfold Before
  simp only [isBeforeActivation_of_stamps hx hy]
  cases y.sentAt <;> simp

theorem before_of_none {x y : HistoryMessage} (h : stamp x = none ∨ stamp y = none) :
    Before x y ↔ ∃ s ∈ x.sentAt, ∃ t ∈ y.sentAt, s < t := by
  unfold Before
  simp only [isBeforeActivation_of_none h]
  cases x.sentAt <;> cases y.sentAt <;> simp

theorem isStrictOrder_of_datesAgree {messages : List HistoryMessage} (h : DatesAgree messages) :
    IsStrictOrder messages := by
  refine ⟨fun x hself => ?_, fun x hx y hy z hz hdated hxy hyz => ?_⟩
  · cases hstamp : stamp x with
    | none =>
      obtain ⟨s, hs, t, ht, hlt⟩ := (before_of_none (.inl hstamp)).mp hself
      rw [Option.mem_unique hs ht] at hlt
      exact lt_irrefl t hlt
    | some p =>
      obtain ⟨-, hlt⟩ := (before_of_stamps hstamp hstamp).mp hself
      omega
  · -- two messages that are compared by their times are apart, by their ids perhaps at once
    have hle : ∀ v ∈ messages, ∀ w ∈ messages, Before v w → ∀ s ∈ v.sentAt, ∀ t ∈ w.sentAt,
        s ≤ t ∧ (stamp v = none ∨ stamp w = none → s < t) := by
      intro v hv w hw hvw s hs t ht
      by_cases hnone : stamp v = none ∨ stamp w = none
      · obtain ⟨s', hs', t', ht', hlt⟩ := (before_of_none hnone).mp hvw
        rw [Option.mem_unique hs hs', Option.mem_unique ht ht']
        exact ⟨hlt.le, fun _ => hlt⟩
      · simp only [not_or, Option.ne_none_iff_exists'] at hnone
        obtain ⟨⟨p, hp⟩, q, hq⟩ := hnone
        obtain ⟨-, hlt⟩ := (before_of_stamps hp hq).mp hvw
        refine ⟨h v hv w hw p q hp hq (by omega) s hs t ht, ?_⟩
        simp [hp, hq]
    obtain ⟨s, hs⟩ := Option.ne_none_iff_exists'.mp hdated
    obtain ⟨t, ht, -⟩ := id hxy
    obtain ⟨u, hu, -⟩ := id hyz
    have hst := hle x hx y hy hxy s hs t ht
    have htu := hle y hy z hz hyz t ht u hu
    by_cases hnone : stamp x = none ∨ stamp z = none
    · refine (before_of_none hnone).mpr ⟨s, hs, u, hu, ?_⟩
      rcases hnone with hnone | hnone
      · exact lt_of_lt_of_le (hst.2 (.inl hnone)) htu.1
      · exact lt_of_le_of_lt hst.1 (htu.2 (.inr hnone))
    · simp only [not_or, Option.ne_none_iff_exists'] at hnone
      obtain ⟨⟨p, hp⟩, r, hr⟩ := hnone
      refine (before_of_stamps hp hr).mpr ⟨by simp [hu], ?_⟩
      cases hstamp : stamp y with
      | none =>
        by_contra hnot
        have hback := h z hz x hx r p hr hp (by omega) u hu s hs
        have := hst.2 (.inr hstamp)
        have := htu.2 (.inl hstamp)
        omega
      | some q =>
        obtain ⟨-, hxy⟩ := (before_of_stamps hp hstamp).mp hxy
        obtain ⟨-, hyz⟩ := (before_of_stamps hstamp hr).mp hyz
        omega

/-! ## What is collected -/

section Scan

variable {activation : HistoryMessage} {time : ℤ} {history : List HistoryMessage}
  {scanned : ℕ} {collected result : List HistoryMessage} {error : HistoryError}

/-- The message is another than the activation, and before it. -/
def passes (activation : HistoryMessage) (time : ℤ) (message : HistoryMessage) : Bool :=
  message.id ≠ activation.id && isBeforeActivation message activation time

def isContext (activation : HistoryMessage) (time : ℤ) (message : HistoryMessage) : Bool :=
  passes activation time message && isEligibleAuthoredText message

/-- The messages of a thread up to the first that does not pass, with it. -/
def readReplies (activation : HistoryMessage) (time : ℤ) (history : List HistoryMessage) :
    List HistoryMessage :=
  history.take ((history.takeWhile (passes activation time)).length + 1)

theorem passes_eq_false_iff {message : HistoryMessage} : passes activation time message = false ↔
      message.id = activation.id ∨ (!isBeforeActivation message activation time) = true := by
  by_cases hid : message.id = activation.id <;> simp [passes, hid]

theorem readReplies_cons (message : HistoryMessage) (rest : List HistoryMessage) :
    readReplies activation time (message :: rest) = if passes activation time message then
        message :: readReplies activation time rest else [message] := by
  unfold readReplies
  rw [takeWhile_cons]
  split <;> simp

theorem scan_cons (isRoot : Bool) (message : HistoryMessage) (rest : List HistoryMessage) :
    scan isRoot activation time (message :: rest) scanned collected =
      if MAX_HISTORY_MESSAGES_SCANNED < scanned + 1 then .error .scanLimit
      else if message.sentAt = none then .error .messageTimestamp
      else if passes activation time message = false then
        if isRoot then
          scan isRoot activation time rest (scanned + 1) collected
        else .ok collected
      else if isEligibleAuthoredText message then
        if isRoot && (collected ++ [message]).length = ROOT_HISTORY_MESSAGE_LIMIT then
          .ok (collected ++ [message])
        else scan isRoot activation time rest (scanned + 1) (collected ++ [message])
      else scan isRoot activation time rest (scanned + 1) collected := by
  simp only [scan, passes_eq_false_iff]

/-- **In a thread** the reading ends at the first message that does not pass. -/
theorem scan_replies (hscanned : scanned ≤ MAX_HISTORY_MESSAGES_SCANNED) :
    scan false activation time history scanned collected = .ok result ↔
      (scanned + (readReplies activation time history).length ≤ MAX_HISTORY_MESSAGES_SCANNED ∧
        ∀ message ∈ readReplies activation time history, message.sentAt ≠ none) ∧
          collected ++ (history.takeWhile (passes activation time)).filter
            isEligibleAuthoredText = result := by
  induction history generalizing scanned collected with
  | nil => simp [scan, readReplies, hscanned]
  | cons message rest ih =>
    rw [scan_cons, readReplies_cons, takeWhile_cons]
    by_cases hlimit : MAX_HISTORY_MESSAGES_SCANNED < scanned + 1
    · have hlong : ∀ length, ¬scanned + (length + 1) ≤ MAX_HISTORY_MESSAGES_SCANNED :=
        fun length => by omega
      cases passes activation time message <;> simp [hlimit, hlong, -not_le]
    have hgoes : scanned + 1 ≤ MAX_HISTORY_MESSAGES_SCANNED := Nat.le_of_not_lt hlimit
    by_cases hdated : message.sentAt = none
    · cases passes activation time message <;> simp [hlimit, hdated]
    have hlength : ∀ length, scanned + 1 + length = scanned + (length + 1) := fun _ => by omega
    cases passes activation time message with
    | false => simp [hlimit, hdated, hgoes]
    | true =>
      cases heligible : isEligibleAuthoredText message <;>
        simp [hlimit, hdated, heligible, ih hgoes, hlength]

/-- **In a channel** the first eligible messages before the activation are collected. -/
theorem scan_root (hcollected : collected.length < ROOT_HISTORY_MESSAGE_LIMIT)
    (h : scan true activation time history scanned collected = .ok result) :
    result = collected ++ (history.filter (isContext activation time)).take
      (ROOT_HISTORY_MESSAGE_LIMIT - collected.length) := by
  induction history generalizing scanned collected with
  | nil =>
    cases h
    simp
  | cons message rest ih =>
    rw [scan_cons] at h
    simp only [reduceIte, Bool.true_and, decide_eq_true_eq] at h
    split_ifs at h with hlimit hdated hstop heligible hfull
    · rw [ih hcollected h, filter_cons_of_neg (by simp [isContext, hstop])]
    · have hroom : ROOT_HISTORY_MESSAGE_LIMIT - collected.length = 1 := by
        simp at hfull
        omega
      cases h
      rw [filter_cons_of_pos (by simp [isContext, heligible, hstop]), hroom]
      simp
    · obtain ⟨room, hroom⟩ : ∃ room, ROOT_HISTORY_MESSAGE_LIMIT - collected.length = room + 1 :=
        Nat.exists_eq_add_one.mpr (by omega)
      have hnext : (collected ++ [message]).length < ROOT_HISTORY_MESSAGE_LIMIT := by
        simp at hfull ⊢
        omega
      have hroom' : ROOT_HISTORY_MESSAGE_LIMIT - (collected ++ [message]).length = room := by
        simp
        omega
      rw [ih hnext h, filter_cons_of_pos (by simp [isContext, heligible, hstop]), hroom, hroom']
      simp
    · rw [ih hcollected h, filter_cons_of_neg (by simp [isContext, heligible])]

def Settles (isRoot : Bool) (activation : HistoryMessage) (time : ℤ)
    (read : List HistoryMessage) : Prop :=
  if isRoot then
    ROOT_HISTORY_MESSAGE_LIMIT ≤ read.countP (isContext activation time)
  else ∃ message ∈ read, passes activation time message = false

/-- The failure is the scan limit or a time, at a message behind others which do not settle the
result. -/
def HasReason (isRoot : Bool) (activation : HistoryMessage) (time : ℤ)
    (history : List HistoryMessage) (error : HistoryError) : Prop :=
  ∃ before message after, history = before ++ message :: after ∧
    ¬Settles isRoot activation time before ∧
      ((error = .scanLimit ∧ before.length = MAX_HISTORY_MESSAGES_SCANNED) ∨
        (error = .messageTimestamp ∧ message.sentAt = none))

theorem scan_error {isRoot : Bool} (done : List HistoryMessage)
    (hdone : ¬Settles isRoot activation time done)
    (hlength : done.length ≤ MAX_HISTORY_MESSAGES_SCANNED) (hcollected : isRoot = true →
      collected.length = done.countP (isContext activation time))
    (h : scan isRoot activation time history done.length collected = .error error) :
    HasReason isRoot activation time (done ++ history) error := by
  induction history generalizing done collected with
  | nil => cases h
  | cons message rest ih =>
    rw [scan_cons] at h
    by_cases hlimit : MAX_HISTORY_MESSAGES_SCANNED < done.length + 1
    · rw [if_pos hlimit] at h
      cases h
      exact ⟨done, message, rest, rfl, hdone, .inl ⟨rfl, by omega⟩⟩
    rw [if_neg hlimit] at h
    by_cases hdated : message.sentAt = none
    · rw [if_pos hdated] at h
      cases h
      exact ⟨done, message, rest, rfl, hdone, .inr ⟨rfl, hdated⟩⟩
    rw [if_neg hdated] at h
    -- the loop goes on with the message among what has been read
    have hgoes : ∀ collected, ¬Settles isRoot activation time (done ++ [message]) →
        (isRoot = true → collected.length =
          (done ++ [message]).countP (isContext activation time)) →
        scan isRoot activation time rest (done.length + 1) collected = .error error →
        HasReason isRoot activation time (done ++ message :: rest) error := by
      intro collected hnext hcount hscan
      have hread := ih _ hnext (by simp; omega) hcount (by simpa using hscan)
      rwa [append_assoc] at hread
    cases isRoot with
    | false =>
      simp only [Bool.false_eq_true, reduceIte, Bool.false_and] at h
      split_ifs at h with hstop heligible
      all_goals
        refine hgoes _ (fun hsettles => ?_) (fun hroot => by cases hroot) h
        simp only [Settles, Bool.false_eq_true, reduceIte, mem_append, mem_singleton] at *
        obtain ⟨other, hother | rfl, hpasses⟩ := hsettles
        · exact hdone ⟨other, hother, hpasses⟩
        · exact hstop hpasses
    | true =>
      have hcount := hcollected rfl
      simp only [Settles, reduceIte, not_le] at hdone hgoes
      simp only [reduceIte, Bool.true_and, decide_eq_true_eq] at h
      split_ifs at h with hstop heligible hfull
      · exact hgoes _ (by simpa [isContext, hstop] using hdone)
          (by simp [isContext, hstop, hcount]) h
      · have hlength : (collected ++ [message]).length =
            (done ++ [message]).countP (isContext activation time) := by
          simp [isContext, hstop, heligible, hcount]
        have hless : (collected ++ [message]).length ≤ ROOT_HISTORY_MESSAGE_LIMIT := by
          simp
          omega
        exact hgoes _ (by omega) (fun _ => hlength) h
      · exact hgoes _ (by simpa [isContext, heligible] using hdone)
          (by simp [isContext, heligible, hcount]) h

end Scan

/-! ## Exactly when the history is the one before the activation -/

/-- The messages of a thread that are read are within the limit and have valid times. -/
def IsReadable (activation : HistoryMessage) (time : ℤ)
    (allMessages : List HistoryMessage) : Prop :=
  (readReplies activation time allMessages).length ≤ MAX_HISTORY_MESSAGES_SCANNED ∧
    ∀ message ∈ readReplies activation time allMessages, message.sentAt ≠ none

/-- What a message is before is in order, a failure has its reason, and a result is the
eligible messages before the activation, for one that starts a thread the newest of them. -/
structure CollectsHistory (rootMessageId : String)
    (channelMessages allMessages : List HistoryMessage)
    (activation : HistoryMessage) : Prop where
  order : IsStrictOrder (activation :: channelMessages ++ allMessages)
  failed : ∀ error,
    collectActivationHistory rootMessageId channelMessages allMessages activation = .error error →
      (error = .activationTimestamp ∧ activation.sentAt = none) ∨
        ∃ time ∈ activation.sentAt, HasReason (rootMessageId = activation.id) activation time
          (if rootMessageId = activation.id then channelMessages else allMessages) error
  returned : ∀ result,
    collectActivationHistory rootMessageId channelMessages allMessages activation = .ok result →
      ∃ time ∈ activation.sentAt, result =
        if rootMessageId = activation.id then
          ((channelMessages.filter (isContext activation time)).take
            ROOT_HISTORY_MESSAGE_LIMIT).reverse
        else allMessages.filter (isContext activation time)

theorem collectActivationHistory_eq {rootMessageId : String}
    {channelMessages allMessages : List HistoryMessage} {activation : HistoryMessage} {time : ℤ}
    (htime : activation.sentAt = some time) :
    collectActivationHistory rootMessageId channelMessages allMessages activation =
      if rootMessageId = activation.id then
        (scan true activation time channelMessages 0 []).map List.reverse
      else scan false activation time allMessages 0 [] := by
  rw [collectActivationHistory, htime]

theorem filter_isContext (activation : HistoryMessage) (time : ℤ) (history : List HistoryMessage) :
    history.filter (isContext activation time) =
      (history.takeWhile (passes activation time)).filter isEligibleAuthoredText ++
        (history.dropWhile (passes activation time)).filter (isContext activation time) := by
  conv_lhs => rw [← takeWhile_append_dropWhile (p := passes activation time) (l := history)]
  rw [filter_append]
  congr 1
  refine filter_congr fun message hmem => ?_
  simp [isContext, all_eq_true.mp all_takeWhile message hmem]

/-- **The history is the one before the activation** just when, in a thread whose messages can be
read, no eligible earlier message is listed behind one that is not earlier. -/
theorem collectsHistory_iff {rootMessageId : String}
    {channelMessages allMessages : List HistoryMessage} {activation : HistoryMessage}
    (hdates : DatesAgree (activation :: channelMessages ++ allMessages)) :
    CollectsHistory rootMessageId channelMessages allMessages activation ↔
      ∀ time ∈ activation.sentAt, rootMessageId ≠ activation.id →
        IsReadable activation time allMessages →
          ∀ message ∈ allMessages.dropWhile (passes activation time),
            isContext activation time message = false := by
  constructor
  · intro h time htime hreply hreadable
    have hscan : scan false activation time allMessages 0 [] = .ok _ :=
      (scan_replies (Nat.zero_le _)).mpr ⟨by simpa [IsReadable] using hreadable, rfl⟩
    obtain ⟨time', htime', heq⟩ := h.returned _
      ((collectActivationHistory_eq htime).trans ((if_neg hreply).trans hscan))
    cases Option.mem_unique htime htime'
    rw [if_neg hreply, filter_isContext, nil_append, self_eq_append_right, filter_eq_nil_iff] at heq
    simpa using heq
  · intro h
    refine ⟨isStrictOrder_of_datesAgree hdates, fun error herror => ?_, fun result hresult => ?_⟩
    · cases htime : activation.sentAt with
      | none =>
        rw [collectActivationHistory, htime] at herror
        cases herror
        exact .inl ⟨rfl, rfl⟩
      | some time =>
        refine .inr ⟨time, rfl, ?_⟩
        rw [collectActivationHistory_eq htime] at herror
        by_cases hroot : rootMessageId = activation.id
        · simp only [hroot, decide_true, reduceIte] at herror ⊢
          cases hscan : scan true activation time channelMessages 0 [] with
          | ok found => simp [hscan, Except.map] at herror
          | error error' =>
            rw [hscan] at herror
            cases herror
            exact scan_error [] (by simp [Settles, ROOT_HISTORY_MESSAGE_LIMIT])
              (Nat.zero_le _) (by simp) hscan
        · simp only [hroot, decide_false, reduceIte] at herror ⊢
          exact scan_error [] (by simp [Settles]) (Nat.zero_le _) (by simp) herror
    · cases htime : activation.sentAt with
      | none =>
        rw [collectActivationHistory, htime] at hresult
        cases hresult
      | some time =>
        refine ⟨time, rfl, ?_⟩
        rw [collectActivationHistory_eq htime] at hresult
        by_cases hroot : rootMessageId = activation.id
        · rw [if_pos hroot] at hresult ⊢
          cases hscan : scan true activation time channelMessages 0 [] with
          | ok found =>
            rw [hscan] at hresult
            cases hresult
            rw [scan_root (by decide) hscan, nil_append]
            rfl
          | error error' => simp [hscan, Except.map] at hresult
        · rw [if_neg hroot] at hresult ⊢
          obtain ⟨hreadable, rfl⟩ := (scan_replies (Nat.zero_le _)).mp hresult
          have hnone := h time htime hroot (by simpa [IsReadable] using hreadable)
          rw [filter_isContext, nil_append, self_eq_append_right, filter_eq_nil_iff]
          simpa using hnone

/-! ## A message of the same millisecond -/

def member : ChatSdkAuthor :=
  { isBot := some false, isMe := false, isSystem := false, userId := "U1" }

/-- A reply activation, a message with another id of the same millisecond, and an earlier one of
that millisecond with a Slack id. -/
def mention : HistoryMessage :=
  { author := member, id := "100.000900", sentAt := some 100000, text := "go" }

def forwarded : HistoryMessage :=
  { author := member, id := "m1", sentAt := some 100000, text := "fyi" }

def earlier : HistoryMessage :=
  { author := member, id := "100.000100", sentAt := some 100000, text := "context" }

/-- The earlier message is dropped behind the one whose time is that of the activation. -/
theorem mixedIds_not_collected : DatesAgree [mention, forwarded, earlier, mention] ∧
    ¬CollectsHistory "99.000000" [] [forwarded, earlier, mention] mention := by
  refine ⟨by decide, fun h => ?_⟩
  obtain ⟨time, htime, hnone⟩ := h.returned [] rfl
  cases htime
  exact absurd hnone (by decide)

def first : HistoryMessage :=
  { author := member, id := "98.000000", sentAt := some 98000, text := "first" }

/-- A message of the chat plane itself. -/
def posted : HistoryMessage :=
  { author := { member with isMe := true }, id := "99.500000", sentAt := some 99500
    text := "status" }

/-- The earlier messages of a thread with Slack ids alone, and those of a channel. -/
theorem collectsHistory_iff_slackIds :
    collectActivationHistory "98.000000" [] [first, posted, earlier, mention] mention =
        .ok [first, earlier] ∧
      CollectsHistory "98.000000" [] [first, posted, earlier, mention] mention ∧
      collectActivationHistory mention.id [mention, earlier, posted, first] [] mention =
        .ok [first, earlier] ∧
      CollectsHistory mention.id [mention, earlier, posted, first] [] mention := by
  refine ⟨by decide +kernel, (collectsHistory_iff (by decide)).mpr ?_, by decide +kernel,
    (collectsHistory_iff (by decide)).mpr ?_⟩
  · rintro time htime - -
    cases htime
    decide
  · rintro time htime hroot
    exact absurd rfl hroot

end Laborer.ChatPlane
