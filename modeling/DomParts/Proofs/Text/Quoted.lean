import DomParts.Key
import Mathlib

/-! # Reading quoted texts

What is written inside a quoted text can be read back character by character, without knowing which
characters count as hidden: an escape says by itself where it ends. So different keys never look the same
to a reader, whatever their texts hold.
-/

namespace DomParts

namespace Text

/-- The number that a hexadecimal digit stands for. -/
def digitValue (digit : Char) : Nat :=
  ((List.range 16).find? fun value => value.digitChar = digit).getD 0

/-- The number that hexadecimal digits stand for, the most significant one first. -/
def hexValue (digits : List Char) : Nat :=
  digits.foldl (fun value digit => 16 * value + digitValue digit) 0

/-- What a character behind a backslash stands for. -/
def meaning : Char → Char
  | 'n' => '\n'
  | 'r' => '\r'
  | 't' => '\t'
  | '0' => '\x00'
  | c => c

/-- Reads one character from the inside of a quoted text, and returns what follows it, too. -/
def readChar : List Char → Option (Char × List Char)
  | [] => none
  | '\\' :: 'u' :: '\x7b' :: rest =>
      some (.ofNat (hexValue (rest.takeWhile (· ≠ '\x7d'))), (rest.dropWhile (· ≠ '\x7d')).tail)
  | '\\' :: c :: rest => some (meaning c, rest)
  | c :: rest => some (c, rest)

theorem digitValue_digitChar : ∀ value < 16, digitValue value.digitChar = value := by decide

theorem mem_toDigits {digit : Char} {n : Nat} (member : digit ∈ Nat.toDigits 16 n) :
    ∃ value < 16, digit = value.digitChar := by
  induction n using Nat.strongRecOn with
  | ind n ih =>
      rw [Nat.toDigits_eq_if (by decide)] at member
      split at member
      next small => exact ⟨n, small, List.mem_singleton.1 member⟩
      next large =>
        cases List.mem_append.1 member with
        | inl front => exact ih (n / 16) (by omega) front
        | inr last => exact ⟨n % 16, Nat.mod_lt n (by decide), List.mem_singleton.1 last⟩

theorem ne_brace_of_mem_toDigits {digit : Char} {n : Nat} (member : digit ∈ Nat.toDigits 16 n) :
    digit ≠ '\x7d' := by
  have none : ∀ value < 16, value.digitChar ≠ '\x7d' := by decide
  obtain ⟨value, small, rfl⟩ := mem_toDigits member
  exact none value small

theorem hexValue_toDigits (n : Nat) : hexValue (Nat.toDigits 16 n) = n := by
  induction n using Nat.strongRecOn with
  | ind n ih =>
      rw [Nat.toDigits_eq_if (by decide)]
      split
      next small =>
        rw [hexValue, List.foldl_cons, List.foldl_nil, digitValue_digitChar n small]
        omega
      next large =>
        have front := ih (n / 16) (by omega)
        have last := digitValue_digitChar (n % 16) (Nat.mod_lt n (by decide))
        rw [hexValue] at front ⊢
        rw [List.foldl_append, front, List.foldl_cons, List.foldl_nil, last]
        omega

theorem readChar_codePointEscape (c : Char) (rest : List Char) :
    readChar (codePointEscape c ++ rest) = some (c, rest) := by
  have digits : ∀ digit ∈ Nat.toDigits 16 c.toNat, decide (digit ≠ '\x7d') = true := by
    intro digit member
    exact decide_eq_true (ne_brace_of_mem_toDigits member)
  simp only [codePointEscape, List.cons_append, List.append_assoc, List.nil_append, readChar]
  rw [List.takeWhile_append_of_pos digits, List.dropWhile_append_of_pos digits]
  simp [hexValue_toDigits]

theorem readChar_escapeChar (hidden : Char → Bool) (c : Char) (rest : List Char) :
    readChar (escapeChar hidden c ++ rest) = some (c, rest) := by
  unfold escapeChar
  split
  iterate 6 rfl
  next c _ backslash _ _ _ _ =>
    split
    · exact readChar_codePointEscape _ rest
    -- A character that stands for itself is not the backslash, which every escape begins with.
    · unfold readChar
      split <;> simp_all

/-- The beginning of a text tells which character it stands for and where it ends. The two characters need not
    be written by the same standard. -/
theorem escapeChar_append_inj {hidden other : Char → Bool} {c d : Char} {rest rest' : List Char}
    (same : escapeChar hidden c ++ rest = escapeChar other d ++ rest') : c = d ∧ rest = rest' := by
  have read := congrArg readChar same
  rw [readChar_escapeChar, readChar_escapeChar] at read
  simpa using read

theorem escapeChar_ne_nil (hidden : Char → Bool) (c : Char) : escapeChar hidden c ≠ [] := by
  intro empty
  have read := readChar_escapeChar hidden c []
  rw [empty] at read
  cases read

theorem eq_of_escaped_eq {hidden other : Char → Bool} {one two : List Char}
    (same : one.flatMap (escapeChar hidden) = two.flatMap (escapeChar other)) : one = two := by
  induction one generalizing two with
  | nil =>
      cases two with
      | nil => rfl
      | cons d two =>
          rw [List.flatMap_nil, List.flatMap_cons, List.nil_eq_append_iff] at same
          exact absurd same.1 (escapeChar_ne_nil other d)
  | cons c one ih =>
      cases two with
      | nil =>
          rw [List.flatMap_nil, List.flatMap_cons, List.append_eq_nil_iff] at same
          exact absurd same.1 (escapeChar_ne_nil hidden c)
      | cons d two =>
          rw [List.flatMap_cons, List.flatMap_cons] at same
          obtain ⟨first, rest⟩ := escapeChar_append_inj same
          rw [first, ih rest]

theorem eq_of_quotedBy_eq {hidden other : Char → Bool} {one two : String}
    (same : quotedBy hidden one = quotedBy other two) : one = two := by
  unfold quotedBy quoteChars at same
  have inside := String.ofList_inj.1 same
  rw [List.cons_append, List.cons_append, List.cons.injEq] at inside
  exact String.toList_inj.1 (eq_of_escaped_eq (List.append_cancel_right inside.2))

end Text

namespace Key

variable {hidden : Char → Bool}

theorem head?_index (position : Nat) : ((index position).displayBy hidden).toList.head? = some '#' := by
  simp [displayBy]

theorem head?_str (value : String) : ((str value).displayBy hidden).toList.head? = some '"' := by
  simp [displayBy, Text.quotedBy, Text.quoteChars]

/-- A number begins with a digit or with a minus, so neither with a number sign nor with a quote. -/
theorem head?_int (value : Int) : ((int value).displayBy hidden).toList.head? ≠ some '#' ∧
    ((int value).displayBy hidden).toList.head? ≠ some '"' := by
  have digits : ∀ n : Nat, ∃ first, n.repr.toList.head? = some first ∧ first.isDigit = true := by
    intro n
    rw [Nat.repr_eq_ofList_toDigits, String.toList_ofList]
    cases shape : Nat.toDigits 10 n with
    | nil => exact absurd shape Nat.toDigits_ne_nil
    | cons first rest =>
        have member : first ∈ Nat.toDigits 10 n := shape ▸ List.mem_cons_self
        exact ⟨first, rfl, Nat.isDigit_of_mem_toDigits (by decide) (Nat.le_refl 10) member⟩
  cases value with
  | ofNat n =>
      obtain ⟨first, begins, digit⟩ := digits n
      have begins : ((int n).displayBy hidden).toList.head? = some first := begins
      rw [Int.ofNat_eq_natCast, begins]
      constructor <;> rintro ⟨⟩ <;> cases digit
  | negSucc n =>
      have begins : ((int (.negSucc n)).displayBy hidden).toList.head? = some '-' := by
        simp [displayBy, toString, Int.repr]
      rw [begins]
      decide

/-- Two keys look the same to a reader exactly if they are equal, whichever characters are hidden: a position, a
    number and a text begin differently, and what follows tells the rest. -/
theorem displayBy_eq_iff (hidden : Char → Bool) (one two : Key) :
    one.displayBy hidden = two.displayBy hidden ↔ one = two := by
  constructor
  · intro same
    have begins := congrArg (fun text : String => text.toList.head?) same
    cases one with
    | index position =>
        rw [head?_index] at begins
        cases two with
        | index other =>
            have digits : position.repr = other.repr := by simpa [displayBy] using same
            rw [Nat.repr_inj.1 digits]
        | int other => exact absurd begins.symm (head?_int other).1
        | str other =>
            rw [head?_str] at begins
            cases begins
    | int value =>
        cases two with
        | index other =>
            rw [head?_index] at begins
            exact absurd begins (head?_int value).1
        | int other => rw [Int.repr_inj.1 same]
        | str other =>
            rw [head?_str] at begins
            exact absurd begins (head?_int value).2
    | str value =>
        rw [head?_str] at begins
        cases two with
        | index other =>
            rw [head?_index] at begins
            cases begins
        | int other => exact absurd begins.symm (head?_int other).2
        | str other => rw [Text.eq_of_quotedBy_eq same]
  · intro same
    rw [same]

/-- A text that looks like a position, a number or an escape is none. -/
example : (Key.str "#1").display ≠ (Key.index 1).display ∧ (Key.str "\\u{0}").display ≠ (Key.str "\x00").display := by
  decide

end Key

end DomParts
