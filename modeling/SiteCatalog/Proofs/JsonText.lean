import Mathlib.Data.List.Basic
import SiteCatalog.Data
import SiteCatalog.Json.Fields
import SiteCatalog.Json.Printer
import SiteCatalog.Json.Reader

/-!
# Reading JSON text back

A tree is read back from the text in which it is written, on one line or indented. The two forms
differ only in the space before items and after colons, so that the reader is followed once, for a
layout that says what space there is. Doubles are left out: a tree of a document has no numbers but
integers, each in the one form that the reader gives it.

Results:
* `Json.numberText?_toDigits`, `Json.stringBody?_flatMap`: digits and escapes are read back.
* `Json.value?_text`: a value is read back from its text in any layout.
* `Json.parse?_render`, `Json.parse?_renderPretty`: the two forms of a whole text.
* `Data.parse?_toJson`: a document is read back from its text.
-/

namespace SiteCatalog

/-! ## Digits -/

/-- A number that is not zero is written without leading zeros. -/
theorem head?_toDigits_ne : ∀ {n : ℕ}, 0 < n → (Nat.toDigits 10 n).head? ≠ some '0' := by
  intro n
  induction n using Nat.strongRecOn with
  | _ n ih =>
    intro hn
    by_cases hlt : n < 10
    · rw [Nat.toDigits_of_lt_base hlt, List.head?_cons, ne_eq, Option.some.injEq,
        Nat.digitChar_eq_zero]
      omega
    · rw [Nat.toDigits_of_base_le (by omega) (by omega),
        List.head?_append_of_ne_nil _ Nat.toDigits_ne_nil]
      exact ih (n / 10) (by omega) (by omega)

namespace Json

theorem decimal_toDigits (n : ℕ) : decimal (Nat.toDigits 10 n) = n := by
  have hstep : ∀ (ds : List Char) (m : ℕ),
      ds.foldl (fun n c => n * 10 + (c.toNat - 48)) m = Nat.ofDigitChars 10 ds m := by
    intro ds
    induction ds with
    | nil => exact fun _ => rfl
    | cons c ds ih =>
      intro m
      rw [List.foldl_cons, ih, Nat.ofDigitChars, Nat.ofDigitChars, List.foldl_cons, Nat.mul_comm]
      rfl
  rw [decimal, hstep, Nat.ofDigitChars_ten_toDigits]

theorem isDigit_of_mem_toDigits {n : ℕ} : ∀ c ∈ Nat.toDigits 10 n, c.isDigit = true :=
  fun _ => Nat.isDigit_of_mem_toDigits (by decide) (by decide)

/-- What may come after a number: nothing that a number goes on with. -/
def Follows (rest : List Char) : Prop :=
  ∀ c ∈ rest.head?, c.isDigit = false ∧ c ≠ '.' ∧ c ≠ 'e' ∧ c ≠ 'E'

variable {rest : List Char}

theorem digits?_append {ds : List Char} (hne : ds ≠ []) (hds : ∀ c ∈ ds, c.isDigit = true)
    (hrest : Follows rest) : digits? (ds ++ rest) = some (ds, rest) := by
  have htake : rest.takeWhile Char.isDigit = [] := by
    cases rest with
    | nil => rfl
    | cons c rest => simp [(hrest c rfl).1]
  have hdrop : rest.dropWhile Char.isDigit = rest := by
    cases rest with
    | nil => rfl
    | cons c rest => simp [(hrest c rfl).1]
  rw [digits?, List.takeWhile_append_of_pos hds, List.dropWhile_append_of_pos hds, htake, hdrop,
    List.append_nil]
  cases ds with
  | nil => exact absurd rfl hne
  | cons => rfl

/-- The digits of a natural number with a sign are the parts of a number. -/
theorem numberText?_toDigits (negative : Bool) (n : ℕ) (hrest : Follows rest) :
    numberText? ((if negative then ['-'] else []) ++ Nat.toDigits 10 n ++ rest) =
      some (⟨negative, Nat.toDigits 10 n, none, none⟩, rest) := by
  have hdigits := digits?_append Nat.toDigits_ne_nil (isDigit_of_mem_toDigits (n := n)) hrest
  have hzero : ¬((Nat.toDigits 10 n).head? = some '0' ∧ (Nat.toDigits 10 n).length ≠ 1) := by
    rintro ⟨hhead, hlength⟩
    rcases Nat.eq_zero_or_pos n with rfl | hn
    · exact hlength rfl
    · exact head?_toDigits_ne hn hhead
  -- a number without a sign begins with a digit
  have hunsigned : ∀ r, Nat.toDigits 10 n ++ rest ≠ '-' :: r := by
    intro r heq
    obtain ⟨d, ds, hds⟩ := List.exists_cons_of_ne_nil (Nat.toDigits_ne_nil (n := n) (b := 10))
    have hd := isDigit_of_mem_toDigits (n := n) d (by rw [hds]; exact List.mem_cons_self)
    rw [hds] at heq
    rw [(List.cons.inj heq).1] at hd
    cases hd
  cases rest with
  | nil =>
    rw [List.append_nil] at hdigits hunsigned
    cases negative <;> simp [numberText?, hdigits, if_neg hzero]
  | cons c rest =>
    obtain ⟨-, hpoint, he, hE⟩ := hrest c rfl
    cases negative <;> simp [numberText?, hdigits, if_neg hzero, hpoint, he, hE]

end Json

namespace Number

/-- Whether a number is an integer in its one form. -/
def isExact : Number → Bool
  | unsigned _ => true
  | negative i => i.toInt < 0
  | float _ => false

theorem ofInt?_toNat (n : UInt64) : ofInt? n.toNat = some (unsigned n) := by
  have hsize : (n.toNat : Int) < UInt64.size := by exact_mod_cast n.toNat_lt
  rw [ofInt?, if_pos (Int.natCast_nonneg _), if_pos hsize, Int.toNat_natCast, UInt64.ofNat_toNat]

theorem ofInt?_toInt {i : Int64} (h : i.toInt < 0) : ofInt? i.toInt = some (negative i) := by
  have hlow : -0x8000000000000000 ≤ i.toInt := i.le_toInt
  rw [ofInt?, if_neg (by omega), if_pos hlow, Int64.ofInt_toInt]

theorem toList_text_negative {i : Int64} {k : ℕ} (h : i.toInt = Int.negSucc k) :
    (negative i).text.toList = '-' :: Nat.toDigits 10 (k + 1) := by
  rw [text, h, Int.toString_eq_repr]
  show ("-" ++ (k + 1).repr).toList = _
  rw [String.toList_append, Nat.toList_repr]
  rfl

/-- Digits alone are the integer that they write. -/
theorem value?_toDigits {minus : Bool} {k : ℕ} {n : Number} (hzero : minus = true → k ≠ 0)
    (h : ofInt? (if minus then -(k : Int) else k) = some n) :
    Json.NumberText.value? ⟨minus, Nat.toDigits 10 k, none, none⟩ = some n := by
  rw [Json.NumberText.value?]
  simp only [Json.decimal_toDigits]
  rw [if_pos ⟨rfl, rfl, fun hminus => hzero hminus.1 hminus.2⟩, h]

/-- An integer is written as digits with a sign, from which it is read. -/
theorem exists_toDigits_of_isExact {n : Number} (h : n.isExact = true) : ∃ minus k,
    n.text.toList = (if minus then ['-'] else []) ++ Nat.toDigits 10 k ∧
      Json.NumberText.value? ⟨minus, Nat.toDigits 10 k, none, none⟩ = some n := by
  cases n with
  | unsigned n => exact ⟨false, n.toNat, Nat.toList_repr, value?_toDigits nofun (ofInt?_toNat n)⟩
  | negative i =>
    have hneg : i.toInt < 0 := of_decide_eq_true h
    obtain ⟨k, hk⟩ : ∃ k, i.toInt = Int.negSucc k := Int.eq_negSucc_of_lt_zero hneg
    have hint : -((k + 1 : ℕ) : Int) = i.toInt := by omega
    refine ⟨true, k + 1, toList_text_negative hk, value?_toDigits (fun _ => by omega) ?_⟩
    rw [if_pos rfl, hint, ofInt?_toInt hneg]
  | float x => cases h

end Number

namespace Json

/-! ## Strings -/

theorem hexQuad?_hexDigit {n : ℕ} (h : n < 32) (rest : List Char) :
    hexQuad? ('0' :: '0' :: hexDigit (n / 16) :: hexDigit (n % 16) :: rest) = some (n, rest) := by
  have hdigit : ∀ k < 16, hexValue? (hexDigit k) = some k := by decide
  have hzero : hexValue? '0' = some 0 := rfl
  have hsum : (n / 16) * 16 + n % 16 = n := by omega
  rw [hexQuad?, hzero, hdigit (n / 16) (by omega), hdigit (n % 16) (by omega)]
  simp [hsum]

/-- A character is read back from the way in which it is written. -/
theorem stringBody?_escapeChar (fuel : ℕ) (acc : List Char) (c : Char) (rest : List Char) :
    stringBody? (fuel + 1) acc (escapeChar c ++ rest) = stringBody? fuel (c :: acc) rest := by
  unfold escapeChar
  split
  · next h => subst h; rfl
  split
  · next h => subst h; rfl
  split
  · next h => subst h; rfl
  split
  · next h => subst h; rfl
  split
  · next h => subst h; rfl
  split
  · next h => subst h; rfl
  split
  · next h => subst h; rfl
  split
  · next hcontrol =>
    have hquad := hexQuad?_hexDigit hcontrol rest
    have hescape : escape? ('u' :: '0' :: '0' :: hexDigit (c.toNat / 16) ::
        hexDigit (c.toNat % 16) :: rest) = some (c, rest) := by
      rw [escape?, hquad]
      show (if 0xD800 ≤ c.toNat ∧ c.toNat < 0xDC00 then _ else _) = _
      rw [if_neg (by omega), if_neg (by omega), Char.ofNat_toNat]
      rfl
    show stringBody? (fuel + 1) acc ('\\' :: 'u' :: '0' :: '0' :: hexDigit (c.toNat / 16) ::
      hexDigit (c.toNat % 16) :: rest) = _
    rw [stringBody?, if_neg (by decide), if_pos rfl, hescape]
  · next hquote hbackslash _ _ _ _ _ hcontrol =>
    show stringBody? (fuel + 1) acc (c :: rest) = _
    rw [stringBody?, if_neg hquote, if_neg hbackslash, if_neg hcontrol]

theorem stringBody?_flatMap : ∀ (cs : List Char) {fuel : ℕ} (acc rest : List Char),
    cs.length < fuel → stringBody? fuel acc (cs.flatMap escapeChar ++ '\x22' :: rest) =
      some (String.ofList (acc.reverse ++ cs), rest) := by
  intro cs
  induction cs with
  | nil =>
    intro fuel acc rest hfuel
    obtain ⟨n, rfl⟩ : ∃ n, fuel = n + 1 := ⟨fuel - 1, by simp at hfuel; omega⟩
    rw [List.append_nil]
    rfl
  | cons c cs ih =>
    intro fuel acc rest hfuel
    rw [List.length_cons] at hfuel
    obtain ⟨n, rfl⟩ : ∃ n, fuel = n + 1 := ⟨fuel - 1, by omega⟩
    rw [List.flatMap_cons, List.append_assoc, stringBody?_escapeChar,
      ih (c :: acc) rest (by omega), List.reverse_cons, List.append_assoc]
    rfl

/-- A string as it is written. -/
def quoted (s : String) : List Char :=
  '\x22' :: (s.toList.flatMap escapeChar ++ ['\x22'])

theorem escapeChar_ne_nil (c : Char) : escapeChar c ≠ [] := by
  unfold escapeChar
  split_ifs <;> exact List.cons_ne_nil _ _

/-- Escapes do not make a string shorter, so that the length of a text bounds that of a string. -/
theorem length_le_length_flatMap_escapeChar (cs : List Char) :
    cs.length ≤ (cs.flatMap escapeChar).length := by
  induction cs with
  | nil => exact Nat.le_refl _
  | cons c cs ih =>
    have hpos := List.length_pos_iff.mpr (escapeChar_ne_nil c)
    rw [List.flatMap_cons, List.length_append, List.length_cons]
    omega

theorem length_quoted (s : String) : s.toList.length + 2 ≤ (quoted s).length := by
  have hle := length_le_length_flatMap_escapeChar s.toList
  rw [quoted, List.length_cons, List.length_append, List.length_singleton]
  omega

/-- The rest of a string after its opening quote is read back. -/
theorem stringBody?_quoted {s : String} {fuel : ℕ} {tail : List Char}
    (hs : quoted s = '\x22' :: tail) (hfuel : (quoted s).length < fuel + 2) (rest : List Char) :
    stringBody? fuel [] (tail ++ rest) = some (s, rest) := by
  obtain rfl := (List.cons.inj hs).2
  have hlength := length_quoted s
  rw [List.append_assoc, List.singleton_append, stringBody?_flatMap _ _ _ (by omega),
    List.reverse_nil, List.nil_append, String.ofList_toList]

/-! ## Space -/

variable {space : List Char}

theorem skipSpace_append (hspace : ∀ c ∈ space, isSpace c = true) (cs : List Char) :
    skipSpace (space ++ cs) = skipSpace cs :=
  List.dropWhile_append_of_pos hspace

theorem skipSpace_cons {c : Char} (hc : isSpace c = false) (cs : List Char) :
    skipSpace (c :: cs) = c :: cs := by
  rw [skipSpace, List.dropWhile_cons_of_neg (by rw [hc]; exact Bool.false_ne_true)]

/-- Space before a value is skipped. -/
theorem value?_append (hspace : ∀ c ∈ space, isSpace c = true) (fuel depth : ℕ) (cs : List Char) :
    value? fuel depth (space ++ cs) = value? fuel depth cs := by
  cases fuel with
  | zero => rfl
  | succ fuel => rw [value?, value?, skipSpace_append hspace]

/-! ## Layouts -/

mutual

/-- Whether all numbers of a tree are integers in their one form. -/
def isExact : Json → Bool
  | .number n => n.isExact
  | .array items => areExact items
  | .object members => membersExact members
  | _ => true

/-- Whether all numbers of some trees are integers in their one form. -/
def areExact : List Json → Bool
  | [] => true
  | item :: rest => isExact item && areExact rest

/-- Whether all numbers of some members are integers in their one form. -/
def membersExact : List (String × Json) → Bool
  | [] => true
  | (_, value) :: rest => isExact value && membersExact rest

end

mutual

/-- How many arrays and objects are inside each other; the reader has a limit for this number. -/
def nesting : Json → ℕ
  | .array items => nestingItems items + 1
  | .object members => nestingMembers members + 1
  | _ => 0

/-- How deep arrays and objects nest in the items of an array. -/
def nestingItems : List Json → ℕ
  | [] => 0
  | item :: rest => max (nesting item) (nestingItems rest)

/-- How deep arrays and objects nest in the members of an object. -/
def nestingMembers : List (String × Json) → ℕ
  | [] => 0
  | (_, value) :: rest => max (nesting value) (nestingMembers rest)

end

/-- Where a written form has space: at the start of every item, which depends on its level, and
after the colon of a member. -/
structure Layout where
  line : ℕ → List Char
  gap : List Char
  isSpace_line : ∀ level, ∀ c ∈ line level, isSpace c = true
  isSpace_gap : ∀ c ∈ gap, isSpace c = true

namespace Layout

/-- The space before a closing bracket. -/
def last (l : Layout) (level : ℕ) : Bool → List Char
  | true => []
  | false => l.line level

theorem isSpace_last (l : Layout) (level : ℕ) (empty : Bool) :
    ∀ c ∈ l.last level empty, isSpace c = true := by
  cases empty with
  | true => exact fun _ h => nomatch h
  | false => exact l.isSpace_line level

mutual

/-- A value as it is written from a level on. -/
def text (l : Layout) (level : ℕ) : Json → List Char
  | .null => ['n', 'u', 'l', 'l']
  | .bool true => ['t', 'r', 'u', 'e']
  | .bool false => ['f', 'a', 'l', 's', 'e']
  | .number n => n.text.toList
  | .string s => quoted s
  | .array items =>
    '[' :: ([','].intercalate (texts l (level + 1) items) ++ (l.last level items.isEmpty ++ [']']))
  | .object members =>
    '\x7b' :: ([','].intercalate (memberTexts l (level + 1) members) ++
      (l.last level members.isEmpty ++ ['\x7d']))

/-- Items as they are written, each with the space before it. -/
def texts (l : Layout) (level : ℕ) : List Json → List (List Char)
  | [] => []
  | item :: rest => (l.line level ++ text l level item) :: texts l level rest

/-- Members as they are written, each with the space before it. -/
def memberTexts (l : Layout) (level : ℕ) : List (String × Json) → List (List Char)
  | [] => []
  | (name, value) :: rest =>
    (l.line level ++ (quoted name ++ ':' :: (l.gap ++ text l level value))) ::
      memberTexts l level rest

end

/-- Everything on one line, without space. -/
def compact : Layout where
  line _ := []
  gap := []
  isSpace_line _ _ h := nomatch h
  isSpace_gap _ h := nomatch h

/-- Every item on a line of its own, indented by two spaces a level. -/
def indented : Layout where
  line level := (newline level).toList
  gap := [' ']
  isSpace_line level c h := by
    rw [newline, String.toList_ofList, List.mem_cons] at h
    rcases h with rfl | h
    · rfl
    · rw [(List.mem_replicate.mp h).2]
      rfl
  isSpace_gap c h := by
    rw [List.mem_singleton.mp h]
    rfl

end Layout

theorem toList_quote (s : String) : (quote s).toList = quoted s := by
  rw [quote, String.toList_ofList]
  rfl

mutual

theorem toList_render (level : ℕ) : ∀ j : Json,
    (render j).toList = Layout.compact.text level j
  | .null => rfl
  | .bool true => rfl
  | .bool false => rfl
  | .number n => rfl
  | .string s => toList_quote s
  | .array items => by
    have hlast : Layout.compact.last level items.isEmpty = [] := by
      cases items <;> rfl
    rw [render, Layout.text, hlast, String.toList_append, String.toList_append,
      String.toList_intercalate, toList_renderItems (level + 1) items]
    rfl
  | .object members => by
    have hlast : Layout.compact.last level members.isEmpty = [] := by
      cases members <;> rfl
    rw [render, Layout.text, hlast, String.toList_append, String.toList_append,
      String.toList_intercalate, toList_renderMembers (level + 1) members]
    rfl

theorem toList_renderItems (level : ℕ) : ∀ items : List Json,
    (renderItems items).map String.toList = Layout.compact.texts level items
  | [] => rfl
  | item :: rest => by
    rw [renderItems, List.map_cons, toList_render level item, toList_renderItems level rest]
    rfl

theorem toList_renderMembers (level : ℕ) : ∀ members : List (String × Json),
    (renderMembers members).map String.toList = Layout.compact.memberTexts level members
  | [] => rfl
  | (name, value) :: rest => by
    rw [renderMembers, List.map_cons, String.toList_append, String.toList_append, toList_quote,
      toList_render level value, toList_renderMembers level rest, List.append_assoc]
    rfl

end

mutual

theorem toList_renderIndented (level : ℕ) : ∀ j : Json,
    (renderIndented level j).toList = Layout.indented.text level j
  | .null => by rw [renderIndented, Layout.text]; rfl
  | .bool true => by rw [renderIndented, Layout.text]; rfl
  | .bool false => by rw [renderIndented, Layout.text]; rfl
  | .number n => by rw [renderIndented, Layout.text]
  | .string s => toList_quote s
  | .array [] => by
    rw [renderIndented, if_pos List.isEmpty_nil, Layout.text, Layout.texts, List.intercalate_nil]
    rfl
  | .array (item :: rest) => by
    have hitems := toList_indentItems (level + 1) (item :: rest)
    rw [renderIndented, if_neg (by exact Bool.false_ne_true), Layout.text, String.toList_append,
      String.toList_append, String.toList_append, String.toList_intercalate, hitems,
      List.append_assoc, List.append_assoc]
    rfl
  | .object [] => by
    rw [renderIndented, if_pos List.isEmpty_nil, Layout.text, Layout.memberTexts,
      List.intercalate_nil]
    rfl
  | .object (member :: rest) => by
    have hmembers := toList_indentMembers (level + 1) (member :: rest)
    rw [renderIndented, if_neg (by exact Bool.false_ne_true), Layout.text, String.toList_append,
      String.toList_append, String.toList_append, String.toList_intercalate, hmembers,
      List.append_assoc, List.append_assoc]
    rfl

theorem toList_indentItems (level : ℕ) : ∀ items : List Json,
    (indentItems level items).map String.toList = Layout.indented.texts level items
  | [] => rfl
  | item :: rest => by
    rw [indentItems, List.map_cons, String.toList_append, toList_renderIndented level item,
      toList_indentItems level rest]
    rfl

theorem toList_indentMembers (level : ℕ) : ∀ members : List (String × Json),
    (indentMembers level members).map String.toList = Layout.indented.memberTexts level members
  | [] => rfl
  | (name, value) :: rest => by
    rw [indentMembers, List.map_cons, String.toList_append, String.toList_append,
      String.toList_append, toList_quote, toList_renderIndented level value,
      toList_indentMembers level rest, List.append_assoc, List.append_assoc]
    rfl

end

/-! ## Trees -/

theorem Follows.of_space {space : List Char} {c : Char} (hspace : ∀ c ∈ space, isSpace c = true)
    (hc : c = ',' ∨ c = ']' ∨ c = '\x7d') : Follows (space ++ c :: rest) := by
  cases space with
  | nil =>
    rintro _ ⟨⟩
    rcases hc with rfl | rfl | rfl <;> decide
  | cons s space =>
    rintro _ ⟨⟩
    have hs := hspace s List.mem_cons_self
    rw [isSpace, Bool.or_eq_true, Bool.or_eq_true, Bool.or_eq_true, decide_eq_true_eq,
      decide_eq_true_eq, decide_eq_true_eq, decide_eq_true_eq] at hs
    rcases hs with ((rfl | rfl) | rfl) | rfl <;> decide

theorem Follows.comma : Follows (',' :: rest) := by
  rintro _ ⟨⟩
  decide

/-- A number begins with a digit or a sign. -/
theorem exists_number_cons {n : Number} (h : n.isExact = true) :
    ∃ c cs, n.text.toList = c :: cs ∧ (c = '-' ∨ c.isDigit = true) := by
  obtain ⟨minus, k, htext, -⟩ := n.exists_toDigits_of_isExact h
  obtain ⟨d, ds, hds⟩ := List.exists_cons_of_ne_nil (Nat.toDigits_ne_nil (n := k) (b := 10))
  have hd := isDigit_of_mem_toDigits d (hds ▸ List.mem_cons_self)
  rw [hds] at htext
  cases minus with
  | true => exact ⟨'-', d :: ds, htext, .inl rfl⟩
  | false => exact ⟨d, ds, htext, .inr hd⟩

/-- No number begins as something else does. -/
theorem ne_of_number {c : Char} (h : c = '-' ∨ c.isDigit = true) :
    isSpace c = false ∧ c ≠ ']' ∧ c ≠ '\x22' ∧ c ≠ '[' ∧ c ≠ '\x7b' := by
  have hspace : isSpace c = false := by
    by_contra hspace
    rw [Bool.not_eq_false, isSpace, Bool.or_eq_true, Bool.or_eq_true, Bool.or_eq_true,
      decide_eq_true_eq, decide_eq_true_eq, decide_eq_true_eq, decide_eq_true_eq] at hspace
    rcases hspace with ((rfl | rfl) | rfl) | rfl <;> revert h <;> decide
  refine ⟨hspace, ?_, ?_, ?_, ?_⟩ <;> rintro rfl <;> revert h <;> decide

/-- A value begins with a character that is neither space nor a closing bracket. -/
theorem exists_text_cons (l : Layout) (level : ℕ) {j : Json} (h : j.isExact = true) :
    ∃ c cs, l.text level j = c :: cs ∧ isSpace c = false ∧ c ≠ ']' := by
  cases j with
  | null => exact ⟨_, _, rfl, by decide⟩
  | bool b => cases b <;> exact ⟨_, _, rfl, by decide⟩
  | number n =>
    obtain ⟨c, cs, htext, hc⟩ := exists_number_cons h
    exact ⟨c, cs, htext, (ne_of_number hc).1, (ne_of_number hc).2.1⟩
  | string s => exact ⟨_, _, rfl, by decide⟩
  | array items => exact ⟨_, _, rfl, by decide⟩
  | object members => exact ⟨_, _, rfl, by decide⟩

theorem value?_number {n : Number} {fuel depth : ℕ} (h : n.isExact = true) (hrest : Follows rest) :
    value? (fuel + 1) depth (n.text.toList ++ rest) = some (.number n, rest) := by
  obtain ⟨minus, k, htext, hvalue⟩ := n.exists_toDigits_of_isExact h
  obtain ⟨c, cs, hcons, hc⟩ := exists_number_cons h
  obtain ⟨hspace, -, hquote, hbracket, hbrace⟩ := ne_of_number hc
  have hnumber := numberText?_toDigits minus k hrest
  rw [← htext, hcons, List.cons_append] at hnumber
  have hbegins : (decide (c = '-') || c.isDigit) = true := by
    rwa [Bool.or_eq_true, decide_eq_true_eq]
  rw [hcons, List.cons_append, value?, skipSpace_cons hspace]
  dsimp only
  rw [if_neg hquote, if_neg hbracket, if_neg hbrace, if_pos hbegins, hnumber]
  dsimp only [Option.bind_eq_bind, Option.bind_some]
  rw [hvalue]
  rfl

theorem value?_string {s : String} {fuel depth : ℕ} (hfuel : (quoted s).length < fuel + 1) :
    value? (fuel + 1) depth (quoted s ++ rest) = some (.string s, rest) := by
  have hbody : stringBody? fuel [] (s.toList.flatMap escapeChar ++ ['\x22'] ++ rest) =
      some (s, rest) := stringBody?_quoted rfl (by omega) rest
  rw [quoted, List.cons_append, value?, skipSpace_cons (by decide)]
  dsimp only
  rw [if_pos rfl, hbody]
  rfl

/-- An array that is not empty is read from its items. -/
theorem value?_array {cs : List Char} {fuel depth : ℕ} {items : List Json}
    (hfirst : ∀ r, skipSpace cs ≠ ']' :: r) (h : items? fuel depth cs = some (items, rest)) :
    value? (fuel + 1) (depth + 1) ('[' :: cs) = some (.array items, rest) := by
  rw [value?, skipSpace_cons (by decide)]
  dsimp only
  rw [if_neg (by decide), if_pos rfl]
  split
  · next r heq => exact absurd heq (hfirst r)
  · rw [h]
    rfl

/-- An object that is not empty is read from its members. -/
theorem value?_object {cs : List Char} {fuel depth : ℕ} {members : List (String × Json)}
    (hfirst : ∀ r, skipSpace cs ≠ '\x7d' :: r) (h : members? fuel depth cs = some (members, rest)) :
    value? (fuel + 1) (depth + 1) ('\x7b' :: cs) = some (.object members, rest) := by
  rw [value?, skipSpace_cons (by decide)]
  dsimp only
  rw [if_neg (by decide), if_neg (by decide), if_pos rfl]
  split
  · next r heq => exact absurd heq (hfirst r)
  · rw [h]
    rfl

variable {space : List Char}

/-- The last item of an array is read with the closing bracket. -/
theorem items?_last {cs : List Char} {item : Json} {fuel depth : ℕ}
    (hspace : ∀ c ∈ space, isSpace c = true)
    (h : value? fuel depth cs = some (item, space ++ ']' :: rest)) :
    items? (fuel + 1) depth cs = some ([item], rest) := by
  rw [items?, h]
  dsimp only [Option.bind_eq_bind, Option.bind_some]
  rw [skipSpace_append hspace, skipSpace_cons (by decide)]
  rfl

/-- Any other item is read with the comma after it, and then the others are. -/
theorem items?_cons {cs others : List Char} {item : Json} {items : List Json} {fuel depth : ℕ}
    (h : value? fuel depth cs = some (item, ',' :: others))
    (hothers : items? fuel depth others = some (items, rest)) :
    items? (fuel + 1) depth cs = some (item :: items, rest) := by
  rw [items?, h]
  dsimp only [Option.bind_eq_bind, Option.bind_some]
  rw [skipSpace_cons (by decide)]
  show (items? fuel depth others >>= _) = _
  rw [hothers]
  rfl

/-- A member is read from its name on as its value, with what comes after that. -/
theorem members?_quoted {before cs after : List Char} {name : String} {value : Json}
    {fuel depth : ℕ} (hbefore : ∀ c ∈ before, isSpace c = true)
    (hfuel : (quoted name).length < fuel + 2) (h : value? fuel depth cs = some (value, after)) :
    members? (fuel + 1) depth (before ++ (quoted name ++ ':' :: cs)) =
      match skipSpace after with
      | ',' :: r => do
        let (members, r) ← members? fuel depth r
        return ((name, value) :: members, r)
      | '\x7d' :: r => return ([(name, value)], r)
      | _ => none := by
  have hname := stringBody?_quoted (s := name) rfl hfuel (':' :: cs)
  rw [members?, skipSpace_append hbefore, quoted, List.cons_append, skipSpace_cons (by decide)]
  show (stringBody? fuel [] _ >>= _) = _
  rw [hname]
  dsimp only [Option.bind_eq_bind, Option.bind_some]
  rw [skipSpace_cons (by decide)]
  show (value? fuel depth cs >>= _) = _
  rw [h]
  rfl

theorem Layout.intercalate_texts (l : Layout) (level : ℕ) (item next : Json)
    (others : List Json) : [','].intercalate (l.texts level (item :: next :: others)) =
      l.line level ++ l.text level item ++
        ',' :: [','].intercalate (l.texts level (next :: others)) := by
  rw [texts, texts, List.intercalate_cons_cons, List.append_assoc]
  rfl

theorem Layout.intercalate_memberTexts (l : Layout) (level : ℕ) (name : String) (value : Json)
    (next : String × Json) (others : List (String × Json)) :
    [','].intercalate (l.memberTexts level ((name, value) :: next :: others)) =
      l.line level ++ (quoted name ++ ':' :: (l.gap ++ l.text level value)) ++
        ',' :: [','].intercalate (l.memberTexts level (next :: others)) := by
  rw [memberTexts, memberTexts, List.intercalate_cons_cons, List.append_assoc]
  rfl

theorem exists_intercalate_cons (sep text : List Char) (others : List (List Char)) :
    ∃ tail, sep.intercalate (text :: others) = text ++ tail := by
  cases others with
  | nil => exact ⟨[], by rw [List.intercalate_singleton, List.append_nil]⟩
  | cons next others => exact ⟨_, by rw [List.intercalate_cons_cons, List.append_assoc]⟩

/-- The first item of an array is not taken for its closing bracket. -/
theorem skipSpace_texts_ne (l : Layout) (level : ℕ) {item : Json} (h : item.isExact = true)
    (others : List Json) (cs r : List Char) :
    skipSpace ([','].intercalate (l.texts level (item :: others)) ++ cs) ≠ ']' :: r := by
  obtain ⟨c, first, htext, hspace, hne⟩ := exists_text_cons l level h
  obtain ⟨tail, htail⟩ := exists_intercalate_cons [','] (l.line level ++ l.text level item)
    (l.texts level others)
  rw [Layout.texts, htail, List.append_assoc, List.append_assoc,
    skipSpace_append (l.isSpace_line level), htext, List.cons_append, skipSpace_cons hspace]
  exact fun heq => hne (List.cons.inj heq).1

/-- The first member of an object is not taken for its closing brace. -/
theorem skipSpace_memberTexts_ne (l : Layout) (level : ℕ) (member : String × Json)
    (others : List (String × Json)) (cs r : List Char) :
    skipSpace ([','].intercalate (l.memberTexts level (member :: others)) ++ cs) ≠ '\x7d' :: r := by
  obtain ⟨tail, htail⟩ := exists_intercalate_cons [',']
    (l.line level ++ (quoted member.1 ++ ':' :: (l.gap ++ l.text level member.2)))
    (l.memberTexts level others)
  rw [Layout.memberTexts, htail, List.append_assoc, List.append_assoc,
    skipSpace_append (l.isSpace_line level), quoted, List.cons_append, List.cons_append,
    skipSpace_cons (by decide)]
  exact fun heq => absurd (List.cons.inj heq).1 (by decide)

mutual

/-- A value is read back from its text in any layout, given as much fuel as the text is long. -/
theorem value?_text (l : Layout) (level : ℕ) : ∀ (j : Json) {fuel depth : ℕ} {rest : List Char},
    j.isExact = true → j.nesting ≤ depth → (l.text level j).length ≤ fuel → Follows rest →
    value? (fuel + 1) depth (l.text level j ++ rest) = some (j, rest)
  | .null, _, _, _, _, _, _, _ => rfl
  | .bool true, _, _, _, _, _, _, _ => rfl
  | .bool false, _, _, _, _, _, _, _ => rfl
  | .number _, _, _, _, hexact, _, _, hrest => value?_number hexact hrest
  | .string _, _, _, _, _, _, hfuel, _ => value?_string (Nat.lt_succ_of_le hfuel)
  | .array [], _, depth, _, _, hdepth, _, _ => by
    obtain ⟨n, rfl⟩ := Nat.exists_eq_add_of_le' hdepth
    rfl
  | .array (item :: others), fuel, depth, rest, hexact, hdepth, hfuel, _ => by
    obtain ⟨n, rfl⟩ := Nat.exists_eq_succ_of_ne_zero (Nat.ne_zero_of_lt hdepth)
    rw [isExact] at hexact
    have hfirst := (Bool.and_eq_true _ _).mp hexact
    rw [Layout.text, List.length_cons, List.length_append, List.length_append,
      List.length_singleton] at hfuel
    obtain ⟨m, rfl⟩ : ∃ m, fuel = m + 1 := ⟨fuel - 1, by omega⟩
    rw [Layout.text, List.cons_append, List.append_assoc, List.append_assoc,
      List.singleton_append]
    refine value?_array (skipSpace_texts_ne l _ hfirst.1 others _) ?_
    exact items?_texts l (level + 1) (item :: others) (List.cons_ne_nil _ _) hexact
      (Nat.le_of_succ_le_succ hdepth) (by omega) (l.isSpace_last level _)
  | .object [], _, depth, _, _, hdepth, _, _ => by
    obtain ⟨n, rfl⟩ := Nat.exists_eq_add_of_le' hdepth
    rfl
  | .object (member :: others), fuel, depth, rest, hexact, hdepth, hfuel, _ => by
    obtain ⟨n, rfl⟩ := Nat.exists_eq_succ_of_ne_zero (Nat.ne_zero_of_lt hdepth)
    rw [Layout.text, List.length_cons, List.length_append, List.length_append,
      List.length_singleton] at hfuel
    obtain ⟨m, rfl⟩ : ∃ m, fuel = m + 1 := ⟨fuel - 1, by omega⟩
    rw [Layout.text, List.cons_append, List.append_assoc, List.append_assoc,
      List.singleton_append]
    refine value?_object (skipSpace_memberTexts_ne l _ member others _) ?_
    exact members?_memberTexts l (level + 1) (member :: others) (List.cons_ne_nil _ _) hexact
      (Nat.le_of_succ_le_succ hdepth) (by omega) (l.isSpace_last level _)

/-- The items of an array are read back, up to and with its closing bracket. -/
theorem items?_texts (l : Layout) (level : ℕ) : ∀ (items : List Json) {fuel depth : ℕ}
    {space rest : List Char}, items ≠ [] → areExact items = true → nestingItems items ≤ depth →
    ([','].intercalate (l.texts level items)).length + 1 ≤ fuel →
    (∀ c ∈ space, isSpace c = true) →
    items? (fuel + 1) depth ([','].intercalate (l.texts level items) ++ (space ++ ']' :: rest)) =
      some (items, rest)
  | [], _, _, _, _, hne, _, _, _, _ => absurd rfl hne
  | [item], fuel, depth, space, rest, _, hexact, hdepth, hfuel, hspace => by
    obtain ⟨m, rfl⟩ := Nat.exists_eq_succ_of_ne_zero (Nat.ne_zero_of_lt hfuel)
    rw [areExact, Bool.and_eq_true] at hexact
    rw [Layout.texts, Layout.texts, List.intercalate_singleton] at hfuel ⊢
    rw [List.length_append] at hfuel
    refine items?_last hspace ?_
    rw [List.append_assoc, value?_append (l.isSpace_line level)]
    exact value?_text l level item hexact.1 (Nat.max_le.mp hdepth).1 (by omega)
      (.of_space hspace (.inr (.inl rfl)))
  | item :: next :: others, fuel, depth, space, rest, _, hexact, hdepth, hfuel, hspace => by
    obtain ⟨m, rfl⟩ := Nat.exists_eq_succ_of_ne_zero (Nat.ne_zero_of_lt hfuel)
    rw [areExact, Bool.and_eq_true] at hexact
    rw [Layout.intercalate_texts] at hfuel ⊢
    rw [List.length_append, List.length_append, List.length_cons] at hfuel
    refine items?_cons ?_ (items?_texts l level (next :: others) (List.cons_ne_nil _ _) hexact.2
      (Nat.max_le.mp hdepth).2 (by omega) hspace)
    rw [List.append_assoc, List.append_assoc, value?_append (l.isSpace_line level)]
    exact value?_text l level item hexact.1 (Nat.max_le.mp hdepth).1 (by omega) .comma

/-- The members of an object are read back, up to and with its closing brace. -/
theorem members?_memberTexts (l : Layout) (level : ℕ) : ∀ (members : List (String × Json))
    {fuel depth : ℕ} {space rest : List Char}, members ≠ [] → membersExact members = true →
    nestingMembers members ≤ depth →
    ([','].intercalate (l.memberTexts level members)).length + 1 ≤ fuel →
    (∀ c ∈ space, isSpace c = true) →
    members? (fuel + 1) depth ([','].intercalate (l.memberTexts level members) ++
      (space ++ '\x7d' :: rest)) = some (members, rest)
  | [], _, _, _, _, hne, _, _, _, _ => absurd rfl hne
  | [(name, value)], fuel, depth, space, rest, _, hexact, hdepth, hfuel, hspace => by
    obtain ⟨m, rfl⟩ := Nat.exists_eq_succ_of_ne_zero (Nat.ne_zero_of_lt hfuel)
    rw [membersExact, Bool.and_eq_true] at hexact
    rw [Layout.memberTexts, Layout.memberTexts, List.intercalate_singleton] at hfuel ⊢
    rw [List.length_append, List.length_append, List.length_cons, List.length_append] at hfuel
    have hvalue : value? (m + 1) depth (l.gap ++ (l.text level value ++
        (space ++ '\x7d' :: rest))) = some (value, space ++ '\x7d' :: rest) := by
      rw [value?_append l.isSpace_gap]
      exact value?_text l level value hexact.1 (Nat.max_le.mp hdepth).1 (by omega)
        (.of_space hspace (.inr (.inr rfl)))
    rw [List.append_assoc, List.append_assoc, List.cons_append, List.append_assoc,
      members?_quoted (l.isSpace_line level) (by omega) hvalue, skipSpace_append hspace,
      skipSpace_cons (by decide)]
    rfl
  | (name, value) :: next :: others, fuel, depth, space, rest, _, hexact, hdepth, hfuel,
      hspace => by
    obtain ⟨m, rfl⟩ := Nat.exists_eq_succ_of_ne_zero (Nat.ne_zero_of_lt hfuel)
    rw [membersExact, Bool.and_eq_true] at hexact
    rw [Layout.intercalate_memberTexts] at hfuel ⊢
    rw [List.length_append, List.length_append, List.length_append, List.length_cons,
      List.length_append, List.length_cons] at hfuel
    have hvalue : ∀ cs, value? (m + 1) depth (l.gap ++ (l.text level value ++ ',' :: cs)) =
        some (value, ',' :: cs) := by
      intro cs
      rw [value?_append l.isSpace_gap]
      exact value?_text l level value hexact.1 (Nat.max_le.mp hdepth).1 (by omega) .comma
    have hothers : members? (m + 1) depth ([','].intercalate
        (l.memberTexts level (next :: others)) ++ (space ++ '\x7d' :: rest)) =
          some (next :: others, rest) :=
      members?_memberTexts l level (next :: others) (List.cons_ne_nil _ _) hexact.2
        (Nat.max_le.mp hdepth).2 (by omega) hspace
    rw [List.append_assoc, List.append_assoc, List.append_assoc, List.cons_append,
      List.append_assoc, List.cons_append, members?_quoted (l.isSpace_line level) (by omega)
      (hvalue _), skipSpace_cons (by decide)]
    show (members? (m + 1) depth _ >>= _) = _
    rw [hothers]
    rfl

end

/-- What is written in a layout is read back. -/
theorem parse?_text (l : Layout) {j : Json} {s : String} (hs : s.toList = l.text 0 j)
    (hexact : j.isExact = true) (hdepth : j.nesting ≤ maxDepth) : parse? s = some j := by
  have hread : value? (s.toList.length + 2) maxDepth (l.text 0 j ++ []) = some (j, []) :=
    value?_text l 0 j hexact hdepth (by rw [hs]; exact Nat.le_succ _) nofun
  rw [List.append_nil, ← hs] at hread
  rw [parse?, hread]
  rfl

/-- A tree with exact integers is read back from its text on one line, if it is not too deep. -/
theorem parse?_render {j : Json} (hexact : j.isExact = true) (hdepth : j.nesting ≤ maxDepth) :
    parse? j.render = some j :=
  parse?_text .compact (toList_render 0 j) hexact hdepth

/-- A tree with exact integers is read back from its indented text, if it is not too deep. -/
theorem parse?_renderPretty {j : Json} (hexact : j.isExact = true) (hdepth : j.nesting ≤ maxDepth) :
    parse? j.renderPretty = some j :=
  parse?_text .indented (toList_renderIndented 0 j) hexact hdepth

end Json

/-! ## Documents -/

theorem Number.isExact_of_ofInt? {i : Int} {n : Number} (h : ofInt? i = some n) :
    n.isExact = true := by
  unfold ofInt? at h
  split at h
  · cases (Option.ite_none_right_eq_some.mp h).2
    rfl
  · next hneg =>
    obtain ⟨hlow, heq⟩ := Option.ite_none_right_eq_some.mp h
    cases heq
    rw [isExact, Int64.toInt_ofInt_of_le hlow (by omega), decide_eq_true_eq]
    omega

namespace Data

mutual

/-- The integers of a document are in their one form. -/
theorem isExact_toJson : ∀ d : Data, d.toJson.isExact = true
  | .null => rfl
  | .bool _ => rfl
  | .int i => by
    rw [toJson]
    split
    · next h => exact Number.isExact_of_ofInt? h
    · rfl
  | .string _ => rfl
  | .list items => areExact_toJsonItems items
  | .record fields => membersExact_toJsonFields fields
  | .tagged _ payload => (Bool.and_true _).trans (isExact_toJson payload)

theorem areExact_toJsonItems : ∀ items : List Data, Json.areExact (toJsonItems items) = true
  | [] => rfl
  | d :: rest => (Bool.and_eq_true _ _).mpr ⟨isExact_toJson d, areExact_toJsonItems rest⟩

theorem membersExact_toJsonFields : ∀ fields : List (String × Data),
    Json.membersExact (toJsonFields fields) = true
  | [] => rfl
  | (_, d) :: rest => (Bool.and_eq_true _ _).mpr ⟨isExact_toJson d, membersExact_toJsonFields rest⟩

end

/-- A document is read back from the texts in which it is written, if it is not too deep. -/
theorem parse?_toJson {d : Data} (hdepth : d.toJson.nesting ≤ Json.maxDepth) :
    Json.parse? d.toJson.render = some d.toJson ∧
      Json.parse? d.toJson.renderPretty = some d.toJson :=
  ⟨Json.parse?_render d.isExact_toJson hdepth, Json.parse?_renderPretty d.isExact_toJson hdepth⟩

end Data

end SiteCatalog
