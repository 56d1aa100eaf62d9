import Laborer.Library.Decoder
import Laborer.Library.JsonText
import Mathlib.Algebra.Group.Action.Defs
import Mathlib.Algebra.Order.BigOperators.Group.List
import Mathlib.Algebra.Order.Ring.Nat

/-!
# Codecs

How the values of a type are kept as JSON: a codec writes a value, reads it again, and says
which values its schema accepts; these come back, so a codec that is put together from others
needs no proof of its own.

A schema ignores the properties of an object that it does not name.
-/

namespace Laborer.Library

open List Bool

/-- A schema of a type. Only what is `valid` is made. -/
structure Codec (α : Type) where
  encode : α → JsValue
  decode : JsValue → Option α
  valid : α → Bool
  plain : ∀ a, (encode a).isPlain = true
  decode_encode : ∀ a, valid a = true → decode (encode a) = some a

/-- The properties of an object, of which each is read by its name. -/
structure Properties (α : Type) where
  names : List String
  encode : α → List (String × JsValue)
  decode : List (String × JsValue) → Option α
  valid : α → Bool
  names_encode : ∀ a, (encode a).map Prod.fst = names
  plain : ∀ a, ∀ entry ∈ encode a, entry.2.isPlain = true
  decode_of_lookup : ∀ a entries, valid a = true →
    (∀ name ∈ names, entries.lookup name = (encode a).lookup name) → decode entries = some a

abbrev AtMost (α : Type) (bound : ℕ) := { entries : List α // entries.length ≤ bound }

variable {α β : Type}

theorem mapM_of_forall {f : α → JsValue} {g : JsValue → Option α} {items : List α}
    (h : ∀ item ∈ items, g (f item) = some item) : (items.map f).mapM g = some items := by
  induction items with
  | nil => rfl
  | cons item items ih =>
    rw [forall_mem_cons] at h
    exact Decoder.mapM_cons_eq_some.mpr ⟨item, items, h.1, ih h.2, rfl⟩

/-! ## Scalars -/

namespace Codec

/-- `Schema.Int`: an integer that a number holds exactly. -/
def integer : Codec ℤ where
  encode n := .num n
  decode
    | .num q => if Decoder.isSafeInteger q then some q.num else none
    | _ => none
  valid n := Decoder.isSafeInteger n
  plain _ := rfl
  decode_encode n h := by
    dsimp only
    rw [if_pos h, Rat.num_intCast]

/-- `Schema.Int` with a check of what is not negative. -/
def natural (check : ℕ → Bool) : Codec ℕ where
  encode n := .num n
  decode
    | .num q =>
      if Decoder.isSafeInteger q && decide (0 ≤ q.num) && check q.num.toNat then some q.num.toNat
      else none
    | _ => none
  valid n := Decoder.isSafeInteger n && check n
  plain _ := rfl
  decode_encode n h := by
    have hnum : ((n : ℚ).num).toNat = n := by rw [Rat.num_natCast, Int.toNat_natCast]
    have hpos : 0 ≤ (n : ℚ).num := by
      rw [Rat.num_natCast]
      exact Int.natCast_nonneg n
    rw [Bool.and_eq_true] at h
    dsimp only
    rw [hnum, if_pos]
    rw [h.1, h.2, decide_eq_true hpos]
    rfl

def boolean : Codec Bool where
  encode b := .bool b
  decode
    | .bool b => some b
    | _ => none
  valid _ := true
  plain _ := rfl
  decode_encode _ _ := rfl

/-- `Schema.Literals`, for an enumeration. -/
def literals (name : α → String) (all : List α)
    (h : ∀ a, (all.find? fun b => name b = name a) = some a) : Codec α where
  encode a := .str (name a)
  decode
    | .str s => all.find? fun b => name b = s
    | _ => none
  valid _ := true
  plain _ := rfl
  decode_encode a _ := h a

def oneOf (options : List String) : Codec String where
  encode s := .str s
  decode
    | .str s => if options.contains s then some s else none
    | _ => none
  valid s := options.contains s
  plain _ := rfl
  decode_encode _ h := if_pos h

/-! ## Containers -/

/-- `Schema.NullOr`, of what is not null itself. -/
def nullOr (codec : Codec α) (h : ∀ a, codec.encode a ≠ .null) : Codec (Option α) where
  encode
    | none => .null
    | some a => codec.encode a
  decode
    | .null => some none
    | v => (codec.decode v).map some
  valid
    | none => true
    | some a => codec.valid a
  plain
    | none => rfl
    | some a => codec.plain a
  decode_encode
    | none, _ => rfl
    | some a, hvalid => by
      have hdecode := codec.decode_encode a hvalid
      have hnull := h a
      dsimp only
      split
      · next heq => exact absurd heq hnull
      · rw [hdecode]
        rfl

def atMost (codec : Codec α) (bound : ℕ) : Codec (AtMost α bound) where
  encode list := .arr (list.val.map codec.encode)
  decode
    | .arr items =>
      (items.mapM codec.decode).bind fun entries =>
        if h : entries.length ≤ bound then some ⟨entries, h⟩ else none
    | _ => none
  valid list := list.val.all codec.valid
  plain list := by
    rw [JsValue.isPlain_arr, List.all_map, List.all_eq_true]
    exact fun a _ => codec.plain a
  decode_encode list h := by
    have hitems : (list.val.map codec.encode).mapM codec.decode = some list.val :=
      mapM_of_forall fun a ha => codec.decode_encode a (List.all_eq_true.mp h a ha)
    dsimp only
    rw [hitems, Option.bind_some, dif_pos list.property]

def object (properties : Properties α) : Codec α where
  encode a := .obj (properties.encode a)
  decode
    | .obj entries => properties.decode entries
    | _ => none
  valid := properties.valid
  plain a := by
    rw [JsValue.isPlain_obj, List.all_eq_true]
    exact properties.plain a
  decode_encode a h := properties.decode_of_lookup a _ h fun _ _ => rfl

end Codec

/-! ## Properties -/

namespace Properties

def one (name : String) (codec : Codec α) : Properties α where
  names := [name]
  encode a := [(name, codec.encode a)]
  decode entries := (entries.lookup name).bind codec.decode
  valid := codec.valid
  names_encode _ := rfl
  plain a entry hentry := by
    rw [List.mem_singleton.mp hentry]
    exact codec.plain a
  decode_of_lookup a entries h hlookup := by
    rw [hlookup name (List.mem_singleton_self name), List.lookup_cons_self, Option.bind_some]
    exact codec.decode_encode a h

def constant (name : String) (codec : Codec α) (value : α) (h : codec.valid value = true)
    (is : α → Bool) (his : is value = true) : Properties Unit where
  names := [name]
  encode _ := [(name, codec.encode value)]
  decode entries := ((entries.lookup name).bind codec.decode).bind fun found =>
    if is found then some () else none
  valid _ := true
  names_encode _ := rfl
  plain _ entry hentry := by
    rw [List.mem_singleton.mp hentry]
    exact codec.plain value
  decode_of_lookup _ entries _ hlookup := by
    rw [hlookup name (List.mem_singleton_self name), List.lookup_cons_self, Option.bind_some,
      codec.decode_encode value h, Option.bind_some, if_pos his]

theorem lookup_eq_none {properties : Properties α} {a : α} {name : String}
    (h : name ∉ properties.names) : (properties.encode a).lookup name = none := by
  rw [lookup_eq_none_iff]
  intro entry hentry
  have hmem : entry.1 ∈ properties.names := by
    rw [← properties.names_encode a]
    exact mem_map_of_mem hentry
  have hne : name ≠ entry.1 := fun heq => h (heq ▸ hmem)
  simpa using hne

theorem lookup_isSome {properties : Properties α} {a : α} {name : String}
    (h : name ∈ properties.names) : ((properties.encode a).lookup name).isSome = true := by
  rw [← properties.names_encode a] at h
  obtain ⟨entry, hentry, rfl⟩ := mem_map.mp h
  rw [Option.isSome_iff_ne_none]
  intro hnone
  have hne := lookup_eq_none_iff.mp hnone entry hentry
  simp at hne

def and (first : Properties α) (second : Properties β)
    (h : ∀ name ∈ second.names, name ∉ first.names) : Properties (α × β) where
  names := first.names ++ second.names
  encode pair := first.encode pair.1 ++ second.encode pair.2
  decode entries := (first.decode entries).bind fun a =>
    (second.decode entries).map fun b => (a, b)
  valid pair := first.valid pair.1 && second.valid pair.2
  names_encode pair := by
    rw [List.map_append, first.names_encode, second.names_encode]
  plain pair entry hentry := by
    rcases List.mem_append.mp hentry with hfirst | hsecond
    · exact first.plain pair.1 entry hfirst
    · exact second.plain pair.2 entry hsecond
  decode_of_lookup pair entries hvalid hlookup := by
    rw [Bool.and_eq_true] at hvalid
    have hfirst : first.decode entries = some pair.1 := by
      refine first.decode_of_lookup pair.1 entries hvalid.1 fun name hname => ?_
      rw [hlookup name (List.mem_append_left _ hname), List.lookup_append]
      obtain ⟨value, hvalue⟩ := Option.isSome_iff_exists.mp (lookup_isSome (a := pair.1) hname)
      rw [hvalue, Option.some_or]
    have hsecond : second.decode entries = some pair.2 := by
      refine second.decode_of_lookup pair.2 entries hvalid.2 fun name hname => ?_
      rw [hlookup name (List.mem_append_right _ hname), List.lookup_append,
        lookup_eq_none (h name hname), Option.none_or]
    rw [hfirst, hsecond]
    rfl

def map (properties : Properties α) (toType : α → β) (ofType : β → α)
    (h : ∀ b, toType (ofType b) = b) : Properties β where
  names := properties.names
  encode b := properties.encode (ofType b)
  decode entries := (properties.decode entries).map toType
  valid b := properties.valid (ofType b)
  names_encode b := properties.names_encode (ofType b)
  plain b := properties.plain (ofType b)
  decode_of_lookup b entries hvalid hlookup := by
    rw [properties.decode_of_lookup (ofType b) entries hvalid hlookup, Option.map_some, h]

end Properties

/-! ## The length of the text -/

def integerText (n : ℚ) : List Char :=
  if n.num < 0 then '-' :: Nat.toDigits 10 n.num.natAbs else Nat.toDigits 10 n.num.natAbs

/-- How many bytes the text of a value takes, where its numbers are integers. -/
def textBytes (v : JsValue) : ℕ := JsValue.byteLength (v.stringify integerText)

/-- How many bytes the text of some properties takes, with what separates them. -/
def entriesBytes (entries : List (String × JsValue)) : ℕ :=
  (entries.map fun entry => JsValue.byteLength (jsonString entry.1) + 1 + textBytes entry.2).sum +
    entries.length

/-- No value that is accepted takes more bytes. -/
def Codec.Within (codec : Codec α) (bytes : ℕ) : Prop :=
  ∀ a, codec.valid a = true → textBytes (codec.encode a) ≤ bytes

def Properties.Within (properties : Properties α) (bytes : ℕ) : Prop :=
  ∀ a, properties.valid a = true → entriesBytes (properties.encode a) ≤ bytes

theorem byteLength_toDigits {n : ℕ} (h : n < 2 ^ 53) :
    JsValue.byteLength (Nat.toDigits 10 n) ≤ 16 := by
  have hlength : (Nat.toDigits 10 n).length ≤ 16 :=
    (Nat.length_toDigits_le_iff (by decide) (by decide)).mpr (Nat.lt_trans h (by decide))
  have hdigits : ∀ c ∈ Nat.toDigits 10 n, c.utf8Size = 1 := by
    intro c hc
    have hdigit := Nat.isDigit_of_mem_toDigits (by decide) (by decide) hc
    rw [Char.utf8Size_eq_one_iff, UInt32.le_iff_toNat_le]
    simp only [Char.isDigit, and_eq_true, decide_eq_true_eq, ge_iff_le,
      UInt32.le_iff_toNat_le] at hdigit
    exact Nat.le_trans hdigit.2 (by decide)
  unfold JsValue.byteLength
  rw [map_congr_left hdigits, map_const', sum_replicate]
  simpa using hlength

namespace Codec

variable {bytes : ℕ} {codec : Codec α}

theorem Within.mono {more : ℕ} (h : codec.Within bytes) (hle : bytes ≤ more) : codec.Within more :=
  fun a ha => (h a ha).trans hle

theorem within_integer : integer.Within 17 := by
  intro n hvalid
  have hsafe : n.natAbs < 2 ^ 53 := by
    have h : Decoder.isSafeInteger n = true := hvalid
    rw [Decoder.isSafeInteger, and_eq_true, Rat.num_intCast] at h
    exact of_decide_eq_true h.2
  have hdigits := byteLength_toDigits hsafe
  have hminus : '-'.utf8Size = 1 := rfl
  show JsValue.byteLength (integerText n) ≤ 17
  unfold integerText
  rw [Rat.num_intCast]
  split
  · rw [JsValue.byteLength_cons, hminus]
    omega
  · omega

theorem within_natural (check : ℕ → Bool) : (natural check).Within 16 := by
  intro n hvalid
  have hsafe : n < 2 ^ 53 := by
    have h := (and_eq_true_iff.mp hvalid).1
    rw [Decoder.isSafeInteger_nat] at h
    exact of_decide_eq_true h
  have hdigits := byteLength_toDigits hsafe
  show JsValue.byteLength (integerText n) ≤ 16
  unfold integerText
  rw [Rat.num_natCast, if_neg (not_lt.mpr (Int.natCast_nonneg n)), Int.natAbs_natCast]
  exact hdigits

theorem within_boolean : boolean.Within 5 := by
  intro b _
  cases b with
  | false => exact (by decide : JsValue.byteLength "false".toList ≤ 5)
  | true => exact (by decide : JsValue.byteLength "true".toList ≤ 5)

theorem within_literals {name : α → String} {all : List α}
    (h : ∀ a, (all.find? fun b => name b = name a) = some a)
    (hbytes : ∀ a ∈ all, JsValue.byteLength (jsonString (name a)) ≤ bytes) :
    (literals name all h).Within bytes :=
  fun a _ => hbytes a (mem_of_find?_eq_some (h a))

theorem within_oneOf {options : List String}
    (hbytes : ∀ s ∈ options, JsValue.byteLength (jsonString s) ≤ bytes) :
    (oneOf options).Within bytes :=
  fun s hs => hbytes s (contains_iff_mem.mp hs)

theorem Within.nullOr (h : codec.Within bytes) (hfour : 4 ≤ bytes)
    (hnull : ∀ a, codec.encode a ≠ .null) : (codec.nullOr hnull).Within bytes := by
  intro value hvalid
  cases value with
  | none => exact (by decide : JsValue.byteLength "null".toList ≤ 4).trans hfour
  | some a => exact h a hvalid

theorem Within.atMost (h : codec.Within bytes) (bound : ℕ) :
    (codec.atMost bound).Within (2 + bound * (bytes + 1)) := by
  intro list hvalid
  have hitems : ∀ size ∈ list.val.map fun a => textBytes (codec.encode a), size ≤ bytes := by
    intro size hsize
    obtain ⟨a, ha, rfl⟩ := mem_map.mp hsize
    exact h a (all_eq_true.mp hvalid a ha)
  have hsum := sum_le_card_nsmul _ bytes hitems
  have hbound := list.property
  have htext : textBytes ((codec.atMost bound).encode list) =
      2 + (list.val.map fun a => textBytes (codec.encode a)).sum + (list.val.length - 1) := by
    show JsValue.byteLength ((JsValue.arr (list.val.map codec.encode)).stringify integerText) = _
    rw [JsValue.byteLength_arr, map_map, length_map]
    rfl
  rw [length_map, smul_eq_mul] at hsum
  have hmul : list.val.length * (bytes + 1) ≤ bound * (bytes + 1) := Nat.mul_le_mul_right _ hbound
  rw [htext]
  rw [Nat.mul_succ] at hmul
  omega

end Codec

namespace Properties

variable {bytes : ℕ}

theorem within_one (name : String) {codec : Codec α} (h : codec.Within bytes) :
    (one name codec).Within (JsValue.byteLength (jsonString name) + 2 + bytes) := by
  intro a hvalid
  have hbytes := h a hvalid
  show entriesBytes [(name, codec.encode a)] ≤ _
  simp only [entriesBytes, map_cons, map_nil, sum_cons, sum_nil, length_cons, length_nil]
  omega

theorem within_constant (name : String) {codec : Codec α} (value : α)
    (h : codec.valid value = true) (is : α → Bool) (his : is value = true)
    (hbytes : codec.Within bytes) :
    (constant name codec value h is his).Within
      (JsValue.byteLength (jsonString name) + 2 + bytes) :=
  fun _ _ => within_one name hbytes value h

theorem entriesBytes_append (entries more : List (String × JsValue)) :
    entriesBytes (entries ++ more) = entriesBytes entries + entriesBytes more := by
  simp only [entriesBytes, map_append, sum_append, length_append]
  omega

theorem Within.and {first : Properties α} {second : Properties β} {more : ℕ}
    (hfirst : first.Within bytes) (hsecond : second.Within more)
    (h : ∀ name ∈ second.names, name ∉ first.names) :
    (first.and second h).Within (bytes + more) := by
  intro pair hvalid
  obtain ⟨hleft, hright⟩ := and_eq_true_iff.mp hvalid
  show entriesBytes (first.encode pair.1 ++ second.encode pair.2) ≤ _
  rw [entriesBytes_append]
  exact Nat.add_le_add (hfirst pair.1 hleft) (hsecond pair.2 hright)

theorem Within.map {properties : Properties α} (hwithin : properties.Within bytes)
    {toType : α → β} {ofType : β → α} (h : ∀ b, toType (ofType b) = b) :
    (properties.map toType ofType h).Within bytes :=
  fun b => hwithin (ofType b)

theorem Within.object {properties : Properties α} (h : properties.Within bytes) :
    (Codec.object properties).Within (2 + bytes) := by
  intro a hvalid
  have hbytes := h a hvalid
  show JsValue.byteLength ((JsValue.obj (properties.encode a)).stringify integerText) ≤ _
  rw [JsValue.byteLength_obj]
  unfold entriesBytes textBytes at hbytes
  omega

end Properties

end Laborer.Library
