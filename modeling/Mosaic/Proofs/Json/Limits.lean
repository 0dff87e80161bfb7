import Mosaic.Proofs.Json.RoundTrip

/-!
# What a reader refuses

Writing has no limits, but reading has: of the texts of values, those are refused that are nested
too deep or in which a number is out of range, and no others. The reader stops at the first thing
that it refuses, so that it need not read the rest.

* `settles_numeral`: what follows a numeral does not matter for whether it is read.
* `Number.IsLegible`, `Legible`: numbers, and values, whose texts can be read.
* `exists_reads_value`, `refuses_value`: values that are read, as some value, and the others.
* `parse_spell_of_too_deep`: whole texts of integers.
-/

namespace Mosaic.Json

open Decimal

/-! ## Numerals -/

section

variable {α : Type} {read read' : List Char → Except Fault (α × List Char)} {text text' : List Char}
  {causes : Cause → Prop}

/-- The reader takes a text for something, or gives up for one of the causes, whatever follows. -/
def Settles (read : List Char → Except Fault (α × List Char)) (text : List Char)
    (causes : Cause → Prop) : Prop := (∃ a, Reads read text a) ∨ Refuses read text causes

/-- What settles one reading settles another one that comes down to it. -/
theorem Settles.of_eq (h : Settles read' text' causes)
    (heq : ∀ rest, Ended rest → read (text ++ rest) = read' (text' ++ rest)) :
    Settles read text causes := by
  rcases h with ⟨a, hreads⟩ | hrefuses
  · exact .inl ⟨a, fun rest hrest => (heq rest hrest).trans (hreads rest hrest)⟩
  · exact .inr fun rest hrest => heq rest hrest ▸ hrefuses rest hrest

/-- A reading is settled if it comes to a result. -/
theorem settles_ok (a : α) (h : ∀ rest, Ended rest → read (text ++ rest) = .ok (a, rest)) :
    Settles read text causes := .inl ⟨a, h⟩

/-- A reading is settled if it ends in a fault for one of the causes. -/
theorem settles_fault {cause : SyntaxCause} (hcause : causes (.malformed cause))
    (left : List Char → List Char)
    (h : ∀ rest, Ended rest → read (text ++ rest) = fault cause (left rest) 0) :
    Settles read text causes :=
  .inr fun rest hrest => h rest hrest ▸ refused_fault hcause (left rest) 0

end

/-- A number beyond the finite range. -/
def OutOfRange (cause : Cause) : Prop := cause = .malformed .numberOutOfRange

/-- An array or object inside too many others. -/
def TooDeep (cause : Cause) : Prop := cause = .malformed .tooDeep

/-- A scaled number is read, or it is out of range. -/
theorem settles_scaled (negative : Bool) (significand : Nat) (exponent : Int) :
    Settles (scaled negative significand exponent) [] OutOfRange := by
  cases hscale : scale significand exponent with
  | some f =>
    refine settles_ok (.float (if negative then -f else f)) fun rest _ => ?_
    rw [List.nil_append, scaled, hscale]
  | none =>
    refine settles_fault rfl id fun rest _ => ?_
    rw [List.nil_append, scaled, hscale]
    rfl

/-- A sign in front of digits. -/
theorem splitSign_append {sign digits : List Char}
    (hsign : sign = [] ∨ sign = ['+'] ∨ sign = ['-']) (hdigits : AreDigits digits) :
    ∃ down, ∀ rest, splitSign (sign ++ digits ++ rest) = (down, digits ++ rest) := by
  obtain ⟨c, digits, rfl⟩ := List.exists_cons_of_ne_nil hdigits.1
  have hdigit := hdigits.2 c (List.mem_cons_self ..)
  rcases hsign with rfl | rfl | rfl
  · refine ⟨false, fun rest => ?_⟩
    rw [List.nil_append, List.cons_append]
    exact splitSign_of_isDigit hdigit _
  · exact ⟨false, fun rest => rfl⟩
  · exact ⟨true, fun rest => rfl⟩

/-- **An exponent is read** with its sign and digits, or the number is out of range. -/
theorem settles_readExponent {sign digits : List Char}
    (hsign : sign = [] ∨ sign = ['+'] ∨ sign = ['-']) (hdigits : AreDigits digits)
    (negative : Bool) (significand : Nat) (exponent : Int) :
    Settles (readExponent negative significand exponent) (sign ++ digits) OutOfRange := by
  obtain ⟨down, hsplit⟩ := splitSign_append hsign hdigits
  obtain ⟨c, tail, hcons⟩ := List.exists_cons_of_ne_nil hdigits.1
  have hdigit : c.isDigit = true := hdigits.2 c (hcons ▸ List.mem_cons_self ..)
  -- how much of the exponent fits does not depend on what follows it
  generalize habsorb : absorb (Nat.pow 2 31) 0 digits = absorbed
  obtain ⟨e, left⟩ := absorbed
  have heq : ∀ rest, Ended rest → readExponent negative significand exponent (sign ++ digits ++ rest) =
      if left.isEmpty then
        scaled negative significand (if down then exponent - e else exponent + e) rest
      else if significand ≠ 0 ∧ !down then fault .numberOutOfRange (left.drop 1 ++ rest) 0
      else .ok (.float (if negative then -0.0 else 0.0), rest) := by
    intro rest hrest
    have htake := takeWhile_isDigit hdigits.2 hrest.notDigit
    have hdrop := dropWhile_isDigit hdigits.2 hrest.notDigit
    rw [readExponent, hsplit]
    dsimp only
    rw [htake, hdrop, habsorb, hcons, List.cons_append]
    dsimp only
    rw [hdigit, if_neg (by decide)]
  -- an exponent that does not fit makes the number zero, or puts it out of range
  by_cases hleft : left.isEmpty = true
  · refine (settles_scaled negative significand
      (if down then exponent - e else exponent + e)).of_eq fun rest hrest => ?_
    rw [heq rest hrest, if_pos hleft]
    rfl
  · by_cases hlarge : significand ≠ 0 ∧ (!down) = true
    · refine settles_fault rfl (left.drop 1 ++ ·) fun rest hrest => ?_
      rw [heq rest hrest, if_neg hleft, if_pos hlarge]
    · refine settles_ok (.float (if negative then -0.0 else 0.0)) fun rest hrest => ?_
      rw [heq rest hrest, if_neg hleft, if_neg hlarge]

/-- Where an exponent may follow, it is enough to know what is read without one. -/
theorem settles_exponent {read : List Char → Except Fault (Number × List Char)}
    {exponent : List Char} (h : IsExponent exponent) {negative : Bool} {significand : Nat}
    {point : Int} (he : ∀ rest, read ('e' :: rest) = readExponent negative significand point rest)
    (hend : Settles read [] OutOfRange) : Settles read exponent OutOfRange := by
  obtain rfl | ⟨sign, digits, rfl, hsign, hdigits⟩ := h
  · exact hend
  · refine (settles_readExponent hsign hdigits negative significand point).of_eq fun rest _ => ?_
    rw [List.cons_append, he]

/-- A number that ends after its digits is read, or it is out of range. -/
theorem settles_end (negative : Bool) (significand extra : Nat) :
    Settles (readAfterWhole negative significand extra) [] OutOfRange := by
  have heq : ∀ rest, Ended rest → readAfterWhole negative significand extra ([] ++ rest) = _ :=
    fun rest hrest => readAfterWhole_of_ended hrest negative significand extra
  by_cases hextra : extra ≠ 0
  · refine (settles_scaled negative significand extra).of_eq fun rest hrest => ?_
    rw [heq rest hrest, if_pos hextra]
    rfl
  · by_cases hsign : (!negative) = true
    · refine settles_ok (.int significand) fun rest hrest => ?_
      rw [heq rest hrest, if_neg hextra, if_pos hsign]
    · by_cases hsmall : 0 < significand ∧ significand ≤ 2 ^ 63
      · refine settles_ok (.int (-significand)) fun rest hrest => ?_
        rw [heq rest hrest, if_neg hextra, if_neg hsign, if_pos hsmall]
      · refine settles_ok (.float (-Binary64.ofNat significand)) fun rest hrest => ?_
        rw [heq rest hrest, if_neg hextra, if_neg hsign, if_neg hsmall]

/-- The digits behind the point are read in the same way, whether or not an exponent follows. -/
theorem exists_readAfterWhole_point {digits : List Char} (hdigits : AreDigits digits)
    (negative : Bool) (significand extra : Nat) : ∃ (n : Nat) (point : Int),
      (∀ rest, readAfterWhole negative significand extra ('.' :: (digits ++ 'e' :: rest)) =
        readExponent negative n point rest) ∧
      ∀ rest, Ended rest → readAfterWhole negative significand extra ('.' :: (digits ++ rest)) =
        scaled negative n point rest := by
  generalize habsorb : absorb (Nat.pow 2 64) significand digits = absorbed
  obtain ⟨n, left⟩ := absorbed
  have hsome : digits.isEmpty = false := List.isEmpty_eq_false_iff.mpr hdigits.1
  refine ⟨n, (extra : Int) - (digits.length - left.length : Nat), fun rest => ?_,
    fun rest hrest => ?_⟩
  · have hafter : NotDigit ('e' :: rest) := notDigit_cons rfl
    rw [readAfterWhole]
    dsimp only
    rw [takeWhile_isDigit hdigits.2 hafter, dropWhile_isDigit hdigits.2 hafter, hsome, habsorb]
    exact if_neg Bool.false_ne_true
  · rw [readAfterWhole]
    dsimp only
    rw [takeWhile_isDigit hdigits.2 hrest.notDigit, dropWhile_isDigit hdigits.2 hrest.notDigit,
      hsome, habsorb, if_neg Bool.false_ne_true]
    dsimp only
    -- what comes after the numeral begins with no letter
    split
    · next tail => exact absurd rfl (hrest _ tail rfl).2.2.1
    · next tail => exact absurd rfl (hrest _ tail rfl).2.2.2
    · rfl

/-- **What follows the digits before the point** is settled. -/
theorem settles_readAfterWhole {fraction exponent : List Char} (hfraction : IsFraction fraction)
    (hexponent : IsExponent exponent) (negative : Bool) (significand extra : Nat) :
    Settles (readAfterWhole negative significand extra) (fraction ++ exponent) OutOfRange := by
  obtain rfl | ⟨digits, rfl, hdigits⟩ := hfraction
  · exact settles_exponent hexponent (fun rest => rfl) (settles_end negative significand extra)
  · obtain ⟨n, point, hletter, hend⟩ :=
      exists_readAfterWhole_point hdigits negative significand extra
    have hsettles : Settles (fun after => readAfterWhole negative significand extra
        ('.' :: (digits ++ after))) exponent OutOfRange :=
      settles_exponent hexponent hletter ((settles_scaled negative n point).of_eq hend)
    refine hsettles.of_eq fun rest _ => ?_
    rw [List.cons_append, List.cons_append, List.append_assoc]

/-- **Numerals** are read, unless they are out of range. -/
theorem settles_numeral {text : List Char} (h : IsNumeral text) (negative : Bool) :
    Settles (readNumber negative) text OutOfRange := by
  obtain ⟨whole, fraction, exponent, rfl, hwhole, hfraction, hexponent⟩ := h
  -- what follows the first digits is none
  have hafter : ∀ rest, Ended rest → NotDigit (fraction ++ exponent ++ rest) := by
    intro rest hrest
    obtain rfl | ⟨digits, rfl, -⟩ := hfraction
    · obtain rfl | ⟨sign, digits, rfl, -, -⟩ := hexponent
      · exact hrest.notDigit
      · exact notDigit_cons rfl
    · exact notDigit_cons rfl
  obtain rfl | ⟨c, digits, rfl, hzero, hdigits⟩ := hwhole
  · refine (settles_readAfterWhole hfraction hexponent negative 0 0).of_eq fun rest hrest => ?_
    have htake : ([] ++ (fraction ++ exponent ++ rest)).takeWhile Char.isDigit = [] :=
      takeWhile_isDigit (by simp) (hafter rest hrest)
    rw [List.nil_append] at htake
    rw [List.singleton_append, List.cons_append, readNumber, if_pos rfl, htake]
    rfl
  · generalize habsorb : absorb (Nat.pow 2 64) 0 (c :: digits) = absorbed
    obtain ⟨n, left⟩ := absorbed
    refine (settles_readAfterWhole hfraction hexponent negative n left.length).of_eq
      fun rest hrest => ?_
    have htake := takeWhile_isDigit hdigits (hafter rest hrest)
    have hdrop := dropWhile_isDigit hdigits (hafter rest hrest)
    rw [List.cons_append] at htake hdrop
    rw [List.cons_append, List.cons_append, List.append_assoc, readNumber, if_neg hzero,
      if_pos (hdigits c (List.mem_cons_self ..)), htake, hdrop, habsorb]

/-! ## Numbers -/

/-- Whether the text of a number can be read. -/
def Number.IsLegible (n : Number) : Prop := ∃ value, parse (String.ofList n.text) = .ok value

/-- The text of a number is read in the same way wherever it stands. -/
theorem settles_number (n : Number) :
    (∃ m, ∀ nested, Reads (readValueWith nested) n.text (.number m)) ∨
      ∀ nested, Refuses (readValueWith nested) n.text OutOfRange := by
  obtain ⟨negative, numeral, hnumeral, htext⟩ := n.exists_numeral
  have hread : ∀ nested rest, readValueWith nested (n.text ++ rest) =
      (readNumber negative (numeral ++ rest)).map (Prod.map .number id) := by
    intro nested rest
    rw [htext]
    cases negative with
    | true => exact readValueWith_minus (numeral ++ rest) nested
    | false =>
      obtain ⟨c, tail, rfl, hdigit⟩ := hnumeral.eq_cons
      exact readValueWith_of_isDigit hdigit (tail ++ rest) nested
  -- behind the sign nothing depends on how deep the reader is
  rcases settles_numeral hnumeral negative with ⟨m, hreads⟩ | hrefuses
  · refine .inl ⟨m, fun nested rest hrest => ?_⟩
    rw [hread, hreads rest hrest]
    rfl
  · refine .inr fun nested rest hrest => ?_
    rw [hread]
    exact (hrefuses rest hrest).map _

/-- A text is parsed by the reader at the full depth. -/
theorem parse_eq (text : List Char) : parse (String.ofList text) =
    parseWith (readValueWith (nestedReader nestingLimit)) (String.ofList (text ++ [])) := by
  rw [List.append_nil, ← readValue_eq, parse]

/-- A number that is legible is read as one, wherever it stands. -/
theorem Number.IsLegible.exists_reads {n : Number} (h : n.IsLegible) :
    ∃ m, ∀ nested, Reads (readValueWith nested) n.text (.number m) := by
  refine (settles_number n).resolve_right fun hrefuses => ?_
  obtain ⟨value, hparse⟩ := h
  obtain ⟨error, herror, -⟩ := parseWith_of_refuses (hrefuses _) [] (by simp)
  rw [parse_eq, herror] at hparse
  cases hparse

/-- Any other number is refused as out of range. -/
theorem refuses_number {n : Number} (h : ¬n.IsLegible)
    (nested : Option (List Char → Except Fault (Json × List Char))) :
    Refuses (readValueWith nested) n.text OutOfRange := by
  refine (settles_number n).resolve_left ?_ nested
  rintro ⟨m, hreads⟩
  refine h ⟨.number m, ?_⟩
  rw [parse_eq]
  exact parseWith_of_reads (hreads _) [] (by simp)

/-- Integers of 64 bits can be read. -/
theorem isLegible_int {n : Int} (hn : IsWord n) : (Number.int n).IsLegible := by
  refine ⟨.number (.int n), ?_⟩
  rw [parse_eq]
  exact parseWith_of_reads (fun rest hrest => readValueWith_integerText hn hrest _) [] (by simp)

/-! ## Values -/

/-- Values whose numbers can be read. -/
inductive Legible : Json → Prop
  | null : Legible .null
  | bool (b : Bool) : Legible (.bool b)
  | number {n : Number} : n.IsLegible → Legible (.number n)
  | string (s : String) : Legible (.string s)
  | array {items : List Json} : (∀ item ∈ items, Legible item) → Legible (.array items)
  | object {members : List (String × Json)} :
    (∀ member ∈ members, Legible member.2) → Legible (.object members)

/-- Integers within the limits are legible. -/
theorem Integral.legible {value : Json} (h : Integral IsWord value) : value.Legible := by
  induction h with
  | null => exact .null
  | bool b => exact .bool b
  | number hn => exact .number (isLegible_int hn)
  | string s => exact .string s
  | array _ ih => exact .array ih
  | object _ _ ih => exact .object ih

/-- Whether the text of a value is read by a reader of some depth. -/
def FitsIn (d : Nat) (value : Json) : Prop := value.depth ≤ d ∧ value.Legible

/-- At depth zero no bracket may be opened. -/
theorem not_fitsIn_zero_array {items : List Json} : ¬FitsIn 0 (.array items) := by
  intro h
  have hdepth : depthItems items + 1 ≤ 0 := h.1
  omega

/-- An array fits if its items do, one level deeper. -/
theorem fitsIn_array_iff {d : Nat} {items : List Json} :
    FitsIn (d + 1) (.array items) ↔ ∀ item ∈ items, FitsIn d item := by
  unfold FitsIn
  rw [depth, Nat.succ_le_succ_iff, depthItems_le_iff, forall₂_and]
  refine and_congr_right fun _ => ⟨fun h => ?_, .array⟩
  cases h with
  | array hitems => exact hitems

/-- An object fits if its members do, one level deeper. -/
theorem fitsIn_object_iff {d : Nat} {members : List (String × Json)} :
    FitsIn (d + 1) (.object members) ↔ ∀ member ∈ members, FitsIn d member.2 := by
  unfold FitsIn
  rw [depth, Nat.succ_le_succ_iff, depthMembers_le_iff, forall₂_and]
  refine and_congr_right fun _ => ⟨fun h => ?_, .object⟩
  cases h with
  | object hmembers => exact hmembers

variable {d : Nat}

/-- A member whose value is read can be read into any members before it. -/
theorem membersRead_of_reads {s : Spacing} {text : Json → List Char}
    {members : List (String × Json)} {found : Json → Json}
    (hread : ∀ member ∈ members, Reads (readValue d) (text member.2) (found member.2))
    (seen : List (String × Json)) :
    MembersRead s Prod.fst (fun member => text member.2) (readMember (readValue d)) seen members
      (members.foldl (fun seen member => putEntry member.1 (found member.2) seen) seen) := by
  induction members generalizing seen with
  | nil => exact .nil seen
  | cons member rest ih =>
    rw [List.forall_mem_cons] at hread
    exact .cons (reads_member hread.1 member.1 seen) (ih hread.2 _)

/-- **Values that fit** are read as some value, whatever their spelling. -/
theorem exists_reads_value {value : Json} (h : FitsIn d value) :
    ∃ found, ∀ (s : Spacing) (level : Nat), Reads (readValue d) (s.spell level value) found := by
  -- the induction is on the value; a reader of depth `d + 1` reads what it contains with depth `d`
  induction value using value_induction generalizing d with
  | null => exact ⟨.null, fun s level => reads_scalar .null (by simp) (by simp)⟩
  | bool b => exact ⟨.bool b, fun s level => reads_scalar (.bool b) (by simp) (by simp)⟩
  | string text =>
    exact ⟨.string text, fun s level => reads_scalar (.string text) (by simp) (by simp)⟩
  | number n =>
    cases h.2 with
    | number hn =>
      obtain ⟨m, hreads⟩ := hn.exists_reads
      refine ⟨.number m, fun s level => ?_⟩
      rw [readValue_eq, Spacing.spell_scalar (by simp) (by simp)]
      exact hreads _
  | array items ih =>
    obtain ⟨d, rfl⟩ := Nat.exists_eq_add_one_of_ne_zero (Nat.ne_zero_of_lt h.1)
    rw [fitsIn_array_iff] at h
    have hitems : ∀ item ∈ items, ∃ found, ∀ (s : Spacing) (level : Nat),
        Reads (readValue d) (s.spell level item) found := fun item hitem => ih item hitem (h item hitem)
    choose! found hfound using hitems
    refine ⟨.array (items.map found), fun s level => ?_⟩
    rw [Spacing.spell_array]
    exact reads_array (reads_items (fun item _ => startsToken_spell item s (level + 1))
      fun item hitem => hfound item hitem s (level + 1))
  | object members ih =>
    obtain ⟨d, rfl⟩ := Nat.exists_eq_add_one_of_ne_zero (Nat.ne_zero_of_lt h.1)
    rw [fitsIn_object_iff] at h
    have hmembers : ∀ value, value ∈ members.map Prod.snd → ∃ found, ∀ (s : Spacing) (level : Nat),
        Reads (readValue d) (s.spell level value) found := by
      intro value hvalue
      obtain ⟨member, hmember, rfl⟩ := List.mem_map.mp hvalue
      exact ih member hmember (h member hmember)
    choose! found hfound using hmembers
    refine ⟨.object (members.foldl (fun seen member => putEntry member.1 (found member.2) seen) []),
      fun s level => ?_⟩
    rw [Spacing.spell_object]
    exact reads_object (reads_members (membersRead_of_reads (fun member hmember =>
      hfound member.2 (List.mem_map_of_mem hmember) s (level + 1)) []))

/-! ## Values that are refused -/

/-- An array is refused if its items are. -/
theorem refuses_array {text : List Char} {causes : Cause → Prop}
    (h : Refuses (readItems (readValue d)) text causes) :
    Refuses (readValue (d + 1)) ('[' :: text) causes :=
  fun rest hrest => (h rest hrest).map _

/-- An object is refused if its members are. -/
theorem refuses_object {text : List Char} {causes : Cause → Prop}
    (h : Refuses (readMembers (readMember (readValue d)) []) text causes) :
    Refuses (readValue (d + 1)) ('{' :: text) causes :=
  fun rest hrest => (h rest hrest).map _

/-- A member is refused if its value is. -/
theorem refuses_member {s : Spacing} {text : List Char} {causes : Cause → Prop}
    {seen : List (String × Json)} {key : String} (h : Refuses (readValue d) text causes) :
    Refuses (readMember (readValue d) seen key) (':' :: (s.colon ++ text)) causes := by
  intro rest hrest
  have hread : Refused causes (readValue d (s.colon ++ text ++ rest)) := by
    rw [readValue_eq, List.append_assoc, readValueWith_append s.isBlank_colon, ← readValue_eq]
    exact h rest hrest
  rw [List.cons_append, readMember, readColon_colon]
  exact hread.bind _

/-- **Values that do not fit** are refused: as nested too deep, or for a number. -/
theorem refuses_value {causes : Cause → Prop} (hdeep : causes (.malformed .tooDeep)) {value : Json}
    (hnumbers : value.Legible ∨ causes (.malformed .numberOutOfRange)) (h : ¬FitsIn d value)
    (s : Spacing) (level : Nat) : Refuses (readValue d) (s.spell level value) causes := by
  induction value using value_induction generalizing d level with
  | null => exact absurd ⟨Nat.zero_le d, .null⟩ h
  | bool b => exact absurd ⟨Nat.zero_le d, .bool b⟩ h
  | string text => exact absurd ⟨Nat.zero_le d, .string text⟩ h
  | number n =>
    have hn : ¬n.IsLegible := fun hlegible => h ⟨Nat.zero_le d, .number hlegible⟩
    have hcause : causes (.malformed .numberOutOfRange) := by
      refine hnumbers.resolve_left ?_
      intro hlegible
      exact h ⟨Nat.zero_le d, hlegible⟩
    rw [readValue_eq, Spacing.spell_scalar (by simp) (by simp)]
    exact (refuses_number hn _).imp fun cause hrange => hrange ▸ hcause
  | array items ih =>
    rw [Spacing.spell_array]
    -- at depth zero the bracket itself is refused
    cases d with
    | zero => exact fun rest _ => refused_fault hdeep _ 1
    | succ d =>
      have hitems : ∀ item ∈ items, ¬FitsIn d item →
          Refuses (readValue d) (s.spell (level + 1) item) causes := by
        intro item hitem hfits
        refine ih item hitem (hnumbers.imp_left fun hlegible => ?_) hfits (level + 1)
        cases hlegible with
        | array hlegible => exact hlegible item hitem
      rw [fitsIn_array_iff, not_forall₂] at h
      obtain ⟨item, hitem, hfits⟩ := h
      refine refuses_array (refuses_items (fun item _ => startsToken_spell item s (level + 1))
        (fun item hitem => ?_) ⟨item, hitem, hitems item hitem hfits⟩)
      -- the reader comes to the item that is refused, or stops before it for the same causes
      by_cases hfits : FitsIn d item
      · obtain ⟨found, hfound⟩ := exists_reads_value hfits
        exact .inl ⟨found, hfound s (level + 1)⟩
      · exact .inr (hitems item hitem hfits)
  | object members ih =>
    rw [Spacing.spell_object]
    cases d with
    | zero => exact fun rest _ => refused_fault hdeep _ 1
    | succ d =>
      have hmembers : ∀ member ∈ members, ¬FitsIn d member.2 →
          Refuses (readValue d) (s.spell (level + 1) member.2) causes := by
        intro member hmember hfits
        refine ih member hmember (hnumbers.imp_left fun hlegible => ?_) hfits (level + 1)
        cases hlegible with
        | object hlegible => exact hlegible member hmember
      rw [fitsIn_object_iff, not_forall₂] at h
      obtain ⟨member, hmember, hfits⟩ := h
      refine refuses_object (refuses_members (membersRefused_of_exists (fun member hmember => ?_)
        ⟨member, hmember, fun seen => refuses_member (hmembers member hmember hfits)⟩ []))
      by_cases hfits : FitsIn d member.2
      · obtain ⟨found, hfound⟩ := exists_reads_value hfits
        exact .inl fun seen => ⟨_, reads_member (hfound s (level + 1)) member.1 seen⟩
      · exact .inr fun seen => refuses_member (hmembers member hmember hfits)

/-- A text whose numbers are integers of 64 bits is refused only for its depth. -/
theorem parse_spell_of_too_deep {value : Json} (hvalue : Integral IsWord value)
    (hdepth : nestingLimit < value.depth) (s : Spacing) :
    ∃ position, parse (String.ofList (s.spell 0 value)) =
      .error ⟨.malformed .tooDeep, position⟩ := by
  have hdeep : TooDeep (.malformed .tooDeep) := rfl
  have hrefuses : Refuses (readValue nestingLimit) (s.spell 0 value) TooDeep :=
    refuses_value hdeep (.inl hvalue.legible) (fun hfits => Nat.not_le_of_lt hdepth hfits.1) s 0
  obtain ⟨⟨cause, position⟩, hparse, rfl⟩ := parseWith_of_refuses hrefuses [] (by simp)
  rw [List.append_nil] at hparse
  exact ⟨position, hparse⟩

end Mosaic.Json
