import Concord.Settings
import Mathlib.Data.List.Basic
import Mathlib.Data.List.TakeWhile
import Mathlib.Data.Nat.Digits.Defs
import Mathlib.Tactic.Ring

/-!
# What the capacity can be set to

`Sets` says which texts are a capacity, without reading them: a decimal numeral with blanks around
it, whose value is the sum of its digits by their places. Reading accumulates the digits in a word
of 64 bits. It finds exactly the values of these texts that fit, and tells a numeral for zero from
what is no numeral or does not fit.
-/
namespace Concord

namespace Text

/-- What stands between the blanks at the two ends of a text. -/
structure Core (text core : List Char) : Prop where
  split : ∃ before behind, text = before ++ core ++ behind ∧
    (∀ c ∈ before, isBlank c = true) ∧ ∀ c ∈ behind, isBlank c = true
  first : ∀ c ∈ core.head?, isBlank c = false
  last : ∀ c ∈ core.getLast?, isBlank c = false

/-- Blanks in front of a text are dropped, up to the first character that is none. -/
theorem dropWhile_isBlank {before rest : List Char} (hbefore : ∀ c ∈ before, isBlank c = true)
    (hrest : ∀ c ∈ rest.head?, isBlank c = false) :
    (before ++ rest).dropWhile isBlank = rest := by
  rw [List.dropWhile_append_of_pos hbefore]
  cases rest with
  | nil => rfl
  | cons c rest => exact List.dropWhile_cons_of_neg (by simp [hrest c rfl])

theorem isBlank_head?_dropWhile (text : List Char) :
    ∀ c ∈ (text.dropWhile isBlank).head?, isBlank c = false := by
  intro c hc
  have hnot := List.head?_dropWhile_not isBlank text
  rw [Option.mem_def.mp hc] at hnot
  exact hnot

theorem core_trimBlanks (text : List Char) : Core text (trimBlanks text) := by
  let front := text.takeWhile isBlank
  let rest := text.dropWhile isBlank
  let back := rest.reverse.takeWhile isBlank
  have hfront : front ++ rest = text := List.takeWhile_append_dropWhile
  have hrest : trimBlanks text ++ back.reverse = rest := by
    rw [← List.reverse_inj, List.reverse_append, List.reverse_reverse, trimBlanks,
      List.reverse_reverse]
    exact List.takeWhile_append_dropWhile
  refine ⟨⟨front, back.reverse, ?_, fun c hc => List.mem_takeWhile_imp hc, fun c hc => ?_⟩,
    fun c hc => ?_, fun c hc => ?_⟩
  · rw [List.append_assoc, hrest, hfront]
  · exact List.mem_takeWhile_imp (List.mem_reverse.mp hc)
  · apply isBlank_head?_dropWhile text
    change c ∈ rest.head?
    rw [← hrest, List.head?_append, Option.mem_def.mp hc]
    rfl
  · apply isBlank_head?_dropWhile rest.reverse
    rw [trimBlanks, List.getLast?_reverse] at hc
    exact hc

/-- A text has one core, and trimming finds it. -/
theorem Core.eq_trimBlanks {text core : List Char} (h : Core text core) :
    core = trimBlanks text := by
  obtain ⟨before, behind, rfl, hbefore, hbehind⟩ := h.split
  unfold trimBlanks
  cases hcore : core with
  | nil =>
    have hblank : (before ++ [] ++ behind).dropWhile isBlank = [] := by
      rw [List.append_nil, List.dropWhile_eq_nil_iff]
      intro c hc
      exact (List.mem_append.mp hc).elim (hbefore c) (hbehind c)
    rw [hblank]
    rfl
  | cons c rest =>
    rw [← hcore]
    have hne : core ≠ [] := by simp [hcore]
    have hfront : ∀ c ∈ (core ++ behind).head?, isBlank c = false := by
      rw [List.head?_append_of_ne_nil _ hne]
      exact h.first
    have hback : ∀ c ∈ core.reverse.head?, isBlank c = false := by
      rw [List.head?_reverse]
      exact h.last
    rw [List.append_assoc, dropWhile_isBlank hbefore hfront, List.reverse_append,
      dropWhile_isBlank (fun c hc => hbehind c (List.mem_reverse.mp hc)) hback,
      List.reverse_reverse]

end Text

namespace Settings

def digitValue (d : Char) : Nat := d.toNat - '0'.toNat

/-- The value of a line of decimal digits, the most significant first. -/
def decimalValue (digits : List Char) : Nat := Nat.ofDigits 10 (digits.reverse.map digitValue)

/-- The characters are a decimal numeral with this value: at least one ASCII digit, and a plus sign
in front of them or not. -/
inductive Numeral : List Char → Nat → Prop where
  | plain {digits : List Char} (hne : digits ≠ []) (hdigits : ∀ d ∈ digits, '0' ≤ d ∧ d ≤ '9') :
      Numeral digits (decimalValue digits)
  | plus {digits : List Char} (hne : digits ≠ []) (hdigits : ∀ d ∈ digits, '0' ≤ d ∧ d ≤ '9') :
      Numeral ('+' :: digits) (decimalValue digits)

/-- Apart from blanks around it, the text is a numeral with this value. -/
def Sets (raw : String) (n : Nat) : Prop := ∃ core, Text.Core raw.toList core ∧ Numeral core n

theorem decimalValue_cons (d : Char) (digits : List Char) :
    decimalValue (d :: digits) = digitValue d * 10 ^ digits.length + decimalValue digits := by
  unfold decimalValue
  rw [List.reverse_cons, List.map_append, Nat.ofDigits_append, List.length_map, List.length_reverse]
  simp only [List.map_cons, List.map_nil, Nat.ofDigits_singleton]
  ring

theorem isDigit_iff {d : Char} : d.isDigit = true ↔ '0' ≤ d ∧ d ≤ '9' := by
  simp [Char.isDigit, Char.le_def]

theorem digitValue_le {d : Char} (h : d.isDigit = true) : digitValue d ≤ 9 := by
  have hle : d.toNat ≤ 57 := (isDigit_iff.mp h).2
  change d.toNat - 48 ≤ 9
  omega

/-- A digit is appended exactly when the number with it fits into a word, and nothing wraps. -/
theorem appendDigit?_eq_some_iff {n m : UInt64} {d : Char} :
    appendDigit? n d = some m ↔ d.isDigit = true ∧ m.toNat = 10 * n.toNat + digitValue d := by
  by_cases hd : d.isDigit = true
  swap
  · simp [appendDigit?, hd]
  have hv := digitValue_le hd
  have hm := m.toNat_lt
  unfold appendDigit?
  generalize hk : (d.toNat - '0'.toNat).toUInt64 = k
  have hdigit : k.toNat = digitValue d := by
    rw [← hk]
    exact UInt64.toNat_ofNat_of_lt' (by change digitValue d < 2 ^ 64; omega)
  have hlargest : largestCapacity.toNat = 2 ^ 64 - 1 := rfl
  have htenth : n ≤ largestCapacity / 10 ↔ 10 * n.toNat < 2 ^ 64 := by
    rw [UInt64.le_iff_toNat_le, UInt64.toNat_div, hlargest]
    change n.toNat ≤ (2 ^ 64 - 1) / 10 ↔ _
    omega
  have hle : k ≤ largestCapacity := by
    rw [UInt64.le_iff_toNat_le]
    omega
  have hrest : (largestCapacity - k).toNat = 2 ^ 64 - 1 - digitValue d := by
    rw [UInt64.toNat_sub_of_le _ _ hle, hlargest, hdigit]
  have htimes : 10 * n.toNat < 2 ^ 64 → (10 * n).toNat = 10 * n.toNat := by
    intro hfits
    rw [UInt64.toNat_mul]
    exact Nat.mod_eq_of_lt hfits
  have hplus : 10 * n.toNat + digitValue d < 2 ^ 64 →
      (10 * n + k).toNat = 10 * n.toNat + digitValue d := by
    intro hfits
    rw [UInt64.toNat_add, htimes (by omega), hdigit]
    exact Nat.mod_eq_of_lt hfits
  simp only [hd, true_and, htenth]
  rw [Option.ite_none_right_eq_some, Option.some.injEq, UInt64.le_iff_toNat_le, hrest]
  constructor
  · rintro ⟨⟨hfits, hle⟩, rfl⟩
    rw [htimes hfits] at hle
    exact hplus (by omega)
  · intro heq
    refine ⟨⟨by omega, ?_⟩, ?_⟩
    · rw [htimes (by omega)]
      omega
    · rw [← UInt64.toNat_inj, heq]
      exact hplus (by omega)

/-- The digits are read one by one exactly when their value fits into a word. -/
theorem foldlM_appendDigit?_eq_some_iff {digits : List Char} {n m : UInt64} :
    digits.foldlM appendDigit? n = some m ↔
      (∀ d ∈ digits, d.isDigit = true) ∧
        m.toNat = n.toNat * 10 ^ digits.length + decimalValue digits := by
  induction digits generalizing n with
  | nil =>
    change some n = some m ↔ (∀ d ∈ [], _) ∧ m.toNat = n.toNat * 1 + 0
    rw [Option.some.injEq, Nat.mul_one, Nat.add_zero, UInt64.toNat_inj]
    exact ⟨fun h => ⟨List.forall_mem_nil _, h.symm⟩, fun h => h.2.symm⟩
  | cons d rest ih =>
    have hm := m.toNat_lt
    have hpos := Nat.pow_pos (show 0 < 10 by decide) (n := rest.length)
    have hvalue : ∀ v, (10 * v + digitValue d) * 10 ^ rest.length + decimalValue rest =
        v * 10 ^ (d :: rest).length + decimalValue (d :: rest) := by
      intro v
      rw [decimalValue_cons, List.length_cons]
      ring
    rw [List.foldlM_cons, Option.bind_eq_bind, Option.bind_eq_some_iff]
    simp only [appendDigit?_eq_some_iff, ih, List.forall_mem_cons]
    constructor
    · rintro ⟨k, ⟨hd, hk⟩, hrest, heq⟩
      exact ⟨⟨hd, hrest⟩, by rw [heq, hk, hvalue]⟩
    · rintro ⟨⟨hd, hrest⟩, heq⟩
      rw [← hvalue] at heq
      have hfits : 10 * n.toNat + digitValue d < 2 ^ 64 := by
        have := Nat.le_mul_of_pos_right (10 * n.toNat + digitValue d) hpos
        omega
      have hk : (UInt64.ofNat (10 * n.toNat + digitValue d)).toNat = 10 * n.toNat + digitValue d :=
        UInt64.toNat_ofNat_of_lt' hfits
      exact ⟨_, ⟨hd, hk⟩, hrest, by rw [hk, heq]⟩

theorem unsigned_of_digits {digits : List Char} (h : ∀ d ∈ digits, '0' ≤ d ∧ d ≤ '9') :
    unsigned digits = digits := by
  unfold unsigned
  split
  · exact absurd (h '+' List.mem_cons_self) (by decide)
  · rfl

theorem eq_plus_or_eq_unsigned (cs : List Char) : cs = '+' :: unsigned cs ∨ cs = unsigned cs := by
  unfold unsigned
  split
  · exact .inl rfl
  · exact .inr rfl

theorem readNumber_eq_some_iff {cs : List Char} {m : UInt64} :
    readNumber cs = some m ↔ Numeral cs m.toNat := by
  have hread : readNumber cs = some m ↔ unsigned cs ≠ [] ∧
      (∀ d ∈ unsigned cs, '0' ≤ d ∧ d ≤ '9') ∧ m.toNat = decimalValue (unsigned cs) := by
    unfold readNumber
    rw [Option.ite_none_left_eq_some, foldlM_appendDigit?_eq_some_iff]
    simp [isDigit_iff]
  rw [hread]
  constructor
  · rintro ⟨hne, hall, hvalue⟩
    rw [hvalue]
    have hcs := eq_plus_or_eq_unsigned cs
    generalize unsigned cs = digits at hne hall hcs
    rcases hcs with rfl | rfl
    · exact .plus hne hall
    · exact .plain hne hall
  · intro h
    generalize m.toNat = n at h
    cases h with
    | plus hne hall => exact ⟨hne, hall, rfl⟩
    | plain hne hall =>
      rw [unsigned_of_digits hall]
      exact ⟨hne, hall, rfl⟩

theorem Numeral.unique {cs : List Char} {n m : Nat} (h : Numeral cs n) (h' : Numeral cs m) :
    n = m := by
  cases h with
  | plain hne hall =>
    cases h' with
    | plain => rfl
    | plus => exact absurd (hall '+' List.mem_cons_self) (by decide)
  | plus hne hall =>
    cases h' with
    | plain hne hdigits => exact absurd (hdigits '+' List.mem_cons_self) (by decide)
    | plus => rfl

theorem readNumber_eq_none_iff {cs : List Char} :
    readNumber cs = none ↔ ∀ n, Numeral cs n → 2 ^ 64 ≤ n := by
  constructor
  · intro hnone n hn
    by_contra hlt
    have hword : (UInt64.ofNat n).toNat = n := UInt64.toNat_ofNat_of_lt' (Nat.not_le.mp hlt)
    rw [← hword, ← readNumber_eq_some_iff, hnone] at hn
    cases hn
  · intro h
    cases hread : readNumber cs with
    | none => rfl
    | some m => exact absurd (h _ (readNumber_eq_some_iff.mp hread)) (Nat.not_le.mpr m.toNat_lt)

theorem sets_iff {raw : String} {n : Nat} :
    Sets raw n ↔ Numeral (Text.trimBlanks raw.toList) n := by
  constructor
  · rintro ⟨core, hcore, hnumeral⟩
    rw [← hcore.eq_trimBlanks]
    exact hnumeral
  · exact fun h => ⟨_, Text.core_trimBlanks _, h⟩

/-- The two ways to be refused have different texts. -/
theorem message_ne (s : String) :
    capacityVariable ++ " must be a number, got " ++ s ≠
      capacityVariable ++ " must be greater than zero" := by
  intro h
  have hlists := congrArg String.toList h
  rw [String.append_assoc, String.toList_append, String.toList_append, String.toList_append,
    List.append_cancel_left_eq] at hlists
  have hninth := congrArg (·[9]?) hlists
  rw [List.getElem?_append_left (by decide)] at hninth
  revert hninth
  decide

theorem Sets.unique {raw : String} {n m : Nat} (h : Sets raw n) (h' : Sets raw m) : n = m :=
  (sets_iff.mp h).unique (sets_iff.mp h')

/-- A text sets a capacity that fits, or it sets zero, or nothing that it sets fits. -/
theorem readCapacity_cases (raw : String) :
    (∃ n, (Sets raw n ∧ 1 ≤ n ∧ n < 2 ^ 64) ∧ readCapacity raw = .ok n) ∨
    (Sets raw 0 ∧
      readCapacity raw = .error (.setting (capacityVariable ++ " must be greater than zero"))) ∨
    ((∀ n, Sets raw n → 2 ^ 64 ≤ n) ∧
      readCapacity raw =
        .error (.setting (capacityVariable ++ " must be a number, got " ++ Text.quote raw))) := by
  simp only [sets_iff]
  unfold readCapacity
  cases hread : readNumber (Text.trimBlanks raw.toList) with
  | none => exact .inr (.inr ⟨readNumber_eq_none_iff.mp hread, rfl⟩)
  | some m =>
    have hnumeral := readNumber_eq_some_iff.mp hread
    by_cases hzero : m = 0
    · subst hzero
      exact .inr (.inl ⟨hnumeral, rfl⟩)
    · have hpos : m.toNat ≠ 0 := fun h => hzero (UInt64.toNat_inj.mp h)
      refine .inl ⟨m.toNat, ⟨hnumeral, Nat.one_le_iff_ne_zero.mpr hpos, m.toNat_lt⟩, ?_⟩
      split
      · contradiction
      · rename_i heq
        exact absurd (Option.some.inj heq) hzero
      · rename_i heq
        rw [Option.some.inj heq]

theorem readCapacity_ok_or_setting (raw : String) :
    (∃ n, readCapacity raw = .ok n) ∨ ∃ reason, readCapacity raw = .error (.setting reason) := by
  rcases readCapacity_cases raw with ⟨n, -, hread⟩ | ⟨-, hread⟩ | ⟨-, hread⟩
  · exact .inl ⟨n, hread⟩
  · exact .inr ⟨_, hread⟩
  · exact .inr ⟨_, hread⟩

/-- The texts that set the capacity are those of a numeral from 1 to 2 ^ 64 - 1 with blanks around
it, however long it is. A numeral for zero is refused for its value, and every other text, quoted
as it is, for not being a number. -/
theorem capacity_text_classified (raw : String) :
    (∀ n, readCapacity raw = .ok n ↔ Sets raw n ∧ 1 ≤ n ∧ n < 2 ^ 64) ∧
    (readCapacity raw = .error (.setting "CIRCUIT_QUEUE_CAPACITY must be greater than zero") ↔
      Sets raw 0) ∧
    (readCapacity raw =
        .error (.setting ("CIRCUIT_QUEUE_CAPACITY must be a number, got " ++ Text.quote raw)) ↔
      ∀ n, Sets raw n → 2 ^ 64 ≤ n) := by
  have hzero : "CIRCUIT_QUEUE_CAPACITY must be greater than zero" =
      capacityVariable ++ " must be greater than zero" := by decide
  have hnumber : "CIRCUIT_QUEUE_CAPACITY must be a number, got " =
      capacityVariable ++ " must be a number, got " := by decide
  have hne := message_ne (Text.quote raw)
  rw [hzero, hnumber]
  rcases readCapacity_cases raw with ⟨n, ⟨hsets, hpos, hlt⟩, hread⟩ | ⟨hsets, hread⟩ | ⟨hno, hread⟩
  · refine ⟨fun m => ?_, ?_, ?_⟩
    · rw [hread, Except.ok.injEq]
      exact ⟨fun h => h ▸ ⟨hsets, hpos, hlt⟩, fun h => hsets.unique h.1⟩
    · rw [hread]
      exact ⟨nofun, fun h => absurd (hsets.unique h) (by omega)⟩
    · rw [hread]
      exact ⟨nofun, fun h => absurd (h n hsets) (by omega)⟩
  · refine ⟨fun m => ?_, ?_, ?_⟩
    · rw [hread]
      exact ⟨nofun, fun h => absurd (hsets.unique h.1) (by omega)⟩
    · exact ⟨fun _ => hsets, fun _ => hread⟩
    · rw [hread, Except.error.injEq, Refusal.setting.injEq]
      exact ⟨fun h => absurd h.symm hne, fun h => absurd (h 0 hsets) (by decide)⟩
  · refine ⟨fun m => ?_, ?_, ?_⟩
    · rw [hread]
      exact ⟨nofun, fun h => absurd (hno m h.1) (by omega)⟩
    · rw [hread, Except.error.injEq, Refusal.setting.injEq]
      exact ⟨fun h => absurd h hne, fun h => absurd (hno 0 h) (by decide)⟩
    · exact ⟨fun _ => hno, fun _ => hread⟩

/-- Signs, leading zeros and blanks around a numeral do not matter. -/
example : readNumber "+0000000000000000000000018446744073709551615".toList = some largestCapacity ∧
    readNumber "18446744073709551616".toList = none := by
  decide

theorem fromUTF8?_eq_some_iff {bytes : ByteArray} {raw : String} :
    String.fromUTF8? bytes = some raw ↔ raw.toUTF8 = bytes := by
  unfold String.fromUTF8?
  constructor
  · intro h
    split at h
    · cases h
      rfl
    · cases h
  · rintro rfl
    rw [String.toUTF8_eq_toByteArray, dif_pos raw.isValidUTF8]
    rfl

theorem fromUTF8?_eq_none_iff {bytes : ByteArray} :
    String.fromUTF8? bytes = none ↔ ∀ raw : String, raw.toUTF8 ≠ bytes := by
  rw [Option.eq_none_iff_forall_ne_some]
  exact forall_congr' fun raw => not_congr fromUTF8?_eq_some_iff

theorem ofVariable_of_text {bytes : ByteArray} {raw : String} (h : raw.toUTF8 = bytes) :
    ofVariable (some bytes) = (readCapacity raw).map Settings.mk := by
  rw [ofVariable, Option.bind_some, fromUTF8?_eq_some_iff.mpr h]

theorem ofVariable_of_no_text {bytes : ByteArray} (h : ∀ raw : String, raw.toUTF8 ≠ bytes) :
    ofVariable (some bytes) = .ok default := by
  rw [ofVariable, Option.bind_some, fromUTF8?_eq_none_iff.mpr h]

/-- A variable that is set is refused if its bytes are a text that is no capacity. Bytes that are no
text at all are treated as if the variable were not set. -/
theorem setting_ignored_only_if_no_text (bytes : ByteArray) :
    ((∃ reason, ofVariable (some bytes) = .error (.setting reason)) ↔
      ∃ raw : String, raw.toUTF8 = bytes ∧ ∀ n, readCapacity raw ≠ .ok n) ∧
    (∀ n, ofVariable (some bytes) = .ok ⟨n⟩ ↔
      (∃ raw : String, raw.toUTF8 = bytes ∧ readCapacity raw = .ok n) ∨
        (∀ raw : String, raw.toUTF8 ≠ bytes) ∧ n = 50) ∧
    ofVariable none = .ok default := by
  refine ⟨⟨?_, ?_⟩, fun n => ⟨?_, ?_⟩, rfl⟩
  · rintro ⟨reason, hrefused⟩
    by_cases htext : ∃ raw : String, raw.toUTF8 = bytes
    · obtain ⟨raw, hraw⟩ := htext
      refine ⟨raw, hraw, fun n hread => ?_⟩
      rw [ofVariable_of_text hraw, hread] at hrefused
      cases hrefused
    · rw [ofVariable_of_no_text (not_exists.mp htext)] at hrefused
      cases hrefused
  · rintro ⟨raw, hraw, hno⟩
    rw [ofVariable_of_text hraw]
    rcases readCapacity_ok_or_setting raw with ⟨n, hread⟩ | ⟨reason, hread⟩
    · exact absurd hread (hno n)
    · exact ⟨reason, by rw [hread]; rfl⟩
  · intro hok
    by_cases htext : ∃ raw : String, raw.toUTF8 = bytes
    · obtain ⟨raw, hraw⟩ := htext
      rw [ofVariable_of_text hraw] at hok
      rcases readCapacity_ok_or_setting raw with ⟨m, hread⟩ | ⟨reason, hread⟩
      · rw [hread] at hok
        cases hok
        exact .inl ⟨raw, hraw, hread⟩
      · rw [hread] at hok
        cases hok
    · rw [ofVariable_of_no_text (not_exists.mp htext)] at hok
      cases hok
      exact .inr ⟨not_exists.mp htext, rfl⟩
  · rintro (⟨raw, hraw, hread⟩ | ⟨hno, rfl⟩)
    · rw [ofVariable_of_text hraw, hread]
      rfl
    · exact ofVariable_of_no_text hno

/-- The capacity 12 with a stray byte behind it is no capacity, and yet the default holds. -/
theorem undecodable_setting_ignored :
    (∀ (raw : String) (n : Nat), raw.toUTF8 = ⟨#[0x31, 0x32, 0xff]⟩ → readCapacity raw ≠ .ok n) ∧
      ofVariable (some ⟨#[0x31, 0x32, 0xff]⟩) = .ok default := by
  have hno : ∀ raw : String, raw.toUTF8 ≠ ⟨#[0x31, 0x32, 0xff]⟩ :=
    fromUTF8?_eq_none_iff.mp (by decide +kernel)
  exact ⟨fun raw _ hraw => absurd hraw (hno raw), by decide +kernel⟩

end Settings

end Concord
