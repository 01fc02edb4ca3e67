import Mathlib
/-!
# Numbers, bytes and query strings in text

How Python reads an integer (`readInt`), turns text into bytes and back
(`encodeUtf8`, `decodeUtf8`), and reads a query string (`parseQs`). Texts are
lists of characters. The last section is about the places where a pattern
starts in a text: what precedes the first of them is determined by the text.
-/

namespace Text

/-! ## Integers -/

/-- The white space `int` drops. -/
def isSpace (c : Char) : Bool :=
  let n := c.toNat
  (9 ≤ n && n ≤ 13) || n == 0x20 || n == 0x85 || n == 0xA0 || n == 0x1680 || (0x2000 ≤ n && n ≤ 0x200A) ||
    n == 0x2028 || n == 0x2029 || n == 0x202F || n == 0x205F || n == 0x3000

/-- The zeros of the scripts; the other nine digits follow each. -/
def zeros : List ℕ :=
  [0x30, 0x660, 0x6f0, 0x7c0, 0x966, 0x9e6, 0xa66, 0xae6, 0xb66, 0xbe6, 0xc66, 0xce6, 0xd66, 0xde6, 0xe50, 0xed0,
    0xf20, 0x1040, 0x1090, 0x17e0, 0x1810, 0x1946, 0x19d0, 0x1a80, 0x1a90, 0x1b50, 0x1bb0, 0x1c40, 0x1c50, 0xa620,
    0xa8d0, 0xa900, 0xa9d0, 0xa9f0, 0xaa50, 0xabf0, 0xff10, 0x104a0, 0x10d30, 0x11066, 0x110f0, 0x11136, 0x111d0,
    0x112f0, 0x11450, 0x114d0, 0x11650, 0x116c0, 0x11730, 0x118e0, 0x11950, 0x11c50, 0x11d50, 0x11da0, 0x11f50,
    0x16a60, 0x16ac0, 0x16b50, 0x1d7ce, 0x1d7d8, 0x1d7e2, 0x1d7ec, 0x1d7f6, 0x1e140, 0x1e2f0, 0x1e4f0, 0x1e950,
    0x1fbf0]

def decimalValue (c : Char) : Option ℕ :=
  (zeros.find? fun z => z ≤ c.toNat && c.toNat < z + 10).map (c.toNat - ·)

/-- Digits, with at most one underscore between two of them. -/
def digitValues : List Char → Option (List ℕ)
  | [] => none
  | c :: s => do
    let d ← decimalValue c
    match s with
    | [] => some [d]
    | '_' :: s => (digitValues s).map (d :: ·)
    | s => (digitValues s).map (d :: ·)

/-- A sign, if there is one. -/
def sign : List Char → Bool × List Char
  | '-' :: s => (true, s)
  | '+' :: s => (false, s)
  | s => (false, s)

/-- Digits up to white space, with nothing but white space behind it; no more than 4300 of them. -/
def readDigits (negative : Bool) (s : List Char) : Option ℤ :=
  if (s.dropWhile (!isSpace ·)).all isSpace = false then none
  else do
    let ds ← digitValues (s.takeWhile (!isSpace ·))
    if 4300 < ds.length then none
    else
      let n : ℕ := ds.foldl (fun n d => n * 10 + d) 0
      some (if negative then -n else n)

/-- `int` of a string. -/
def readInt (s : List Char) : Option ℤ :=
  let (negative, s) := sign (s.dropWhile isSpace)
  readDigits negative s

/-! ## Bytes -/

def encodeUtf8 (s : List Char) : List UInt8 := s.flatMap String.utf8EncodeChar

def replacement : Char := '\uFFFD'

/-- How many bytes follow a byte that starts a character, and which the first of them can be. -/
def following (a : ℕ) : Option (ℕ × ℕ × ℕ) :=
  if 0xC2 ≤ a ∧ a ≤ 0xDF then some (1, 0x80, 0xBF)
  else if a = 0xE0 then some (2, 0xA0, 0xBF)
  else if a = 0xED then some (2, 0x80, 0x9F)
  else if 0xE1 ≤ a ∧ a ≤ 0xEF then some (2, 0x80, 0xBF)
  else if a = 0xF0 then some (3, 0x90, 0xBF)
  else if a = 0xF4 then some (3, 0x80, 0x8F)
  else if 0xF1 ≤ a ∧ a ≤ 0xF3 then some (3, 0x80, 0xBF)
  else none

/-- The first character of a byte string that is not empty, and how many bytes
it takes. What is no character is replaced up to the byte that makes it none. -/
def decodeChar (a : ℕ) (s : List ℕ) : Char × ℕ :=
  if a < 0x80 then (Char.ofNat a, 1)
  else match following a with
    | none => (replacement, 1)
    | some (n, low, high) =>
      let good := (s.take n).zipIdx.takeWhile fun (b, i) => if i = 0 then low ≤ b && b ≤ high else 0x80 ≤ b && b ≤ 0xBF
      if good.length = n then
        (Char.ofNat (good.foldl (fun x b => x * 64 + b.1 % 64) (a % 2 ^ (6 - n))), n + 1)
      else (replacement, good.length + 1)

/-- At most `n` characters. -/
def decodeChars : ℕ → List ℕ → List Char
  | 0, _ => []
  | _, [] => []
  | n + 1, a :: s =>
    let (c, k) := decodeChar a s
    c :: decodeChars n (s.drop (k - 1))

/-- `bytes.decode("utf-8", "replace")`. -/
def decodeUtf8 (s : List UInt8) : List Char := decodeChars s.length (s.map UInt8.toNat)

/-! ## Query strings -/

def hexValue (c : Char) : Option ℕ :=
  if '0' ≤ c ∧ c ≤ '9' then some (c.toNat - '0'.toNat)
  else if 'a' ≤ c ∧ c ≤ 'f' then some (c.toNat - 'a'.toNat + 10)
  else if 'A' ≤ c ∧ c ≤ 'F' then some (c.toNat - 'A'.toNat + 10)
  else none

/-- The bytes of an ASCII text with its escapes replaced; at most `n` of them. -/
def unquoteBytes : ℕ → List Char → List UInt8
  | 0, _ => []
  | _, [] => []
  | n + 1, c :: s =>
    let escaped := if c = '%' then do
        let a ← s[0]?.bind hexValue
        let b ← s[1]?.bind hexValue
        some (a * 16 + b)
      else none
    match escaped with
    | some x => UInt8.ofNat x :: unquoteBytes n (s.drop 2)
    | none => UInt8.ofNat c.toNat :: unquoteBytes n s

def isAscii (c : Char) : Bool := c.toNat < 128

/-- The longest runs of characters that are all ASCII or all not. -/
def runs (s : List Char) : List (List Char) := s.splitBy fun a b => isAscii a == isAscii b

/-- `urllib.parse.unquote`: only ASCII runs hold escapes, and each is decoded by itself. -/
def unquote (s : List Char) : List Char :=
  (runs s).flatMap fun run =>
    if run.all isAscii then decodeUtf8 (unquoteBytes run.length run) else run

def unquotePlus (s : List Char) : List Char := unquote (s.map fun c => if c = '+' then ' ' else c)

/-- `urllib.parse.parse_qsl`, with blank values kept. -/
def parseQsl (qs : List Char) : List (List Char × List Char) :=
  ((qs.splitOn '&').filter (· ≠ [])).map fun name_value =>
    (unquotePlus (name_value.takeWhile (· ≠ '=')), unquotePlus (name_value.dropWhile (· ≠ '=')).tail)

/-- A dictionary with one more value. -/
def addValue (d : List (List Char × List (List Char))) (x : List Char × List Char) :
    List (List Char × List (List Char)) :=
  if x.1 ∈ d.map (·.1) then d.map fun e => if e.1 = x.1 then (e.1, e.2 ++ [x.2]) else e else d ++ [(x.1, [x.2])]

/-- `urllib.parse.parse_qs`: the values of each name in the order of the text. -/
def parseQs (qs : List Char) : List (List Char × List (List Char)) := (parseQsl qs).foldl addValue []

/-! ## What follows a break -/

section
variable {α : Type} {p q r : List α} {c : α}

theorem dropWhile_append_cons {f : α → Bool} {s : List α} (t : List α) (h : s.dropWhile f = c :: r) :
    (s ++ t).dropWhile f = c :: r ++ t := by
  induction s with
  | nil => cases h
  | cons d s ih =>
    rw [List.dropWhile_cons] at h
    rw [List.cons_append, List.dropWhile_cons]
    split at h
    · rename_i hd
      rw [if_pos hd]
      exact ih h
    · rename_i hd
      cases h
      rw [if_neg hd]
      rfl

/-- A run of elements does not cross one that is not of its kind. -/
theorem run_append {f : α → Bool} (hc : f c = false) (s t : List α) :
    (s ++ c :: t).takeWhile f = s.takeWhile f ∧ (s ++ c :: t).dropWhile f = s.dropWhile f ++ c :: t := by
  induction s with
  | nil => simp [hc]
  | cons d s ih =>
    rw [List.cons_append, List.takeWhile_cons, List.dropWhile_cons, List.takeWhile_cons, List.dropWhile_cons]
    split
    · rw [ih.1, ih.2]
      exact ⟨rfl, rfl⟩
    · exact ⟨rfl, rfl⟩

theorem sign_append {d : Char} {s t : List Char} : sign (d :: s ++ t) = ((sign (d :: s)).1, (sign (d :: s)).2 ++ t) := by
  by_cases hminus : d = '-'
  · rw [hminus]
    rfl
  · by_cases hplus : d = '+'
    · rw [hplus]
      rfl
    · simp [sign, hminus, hplus]

theorem readDigits_append {negative : Bool} {s t : List Char} {m n : ℤ} (hn : readDigits negative s = some n)
    (hm : readDigits negative (s ++ '\n' :: t) = some m) : m = n := by
  obtain ⟨htake, -⟩ := run_append (f := fun c => !isSpace c) (c := '\n') (by decide) s t
  rw [readDigits] at hn hm
  rw [htake] at hm
  split at hm
  · cases hm
  · split at hn
    · cases hn
    · exact Option.some_inj.1 (hm.symm.trans hn)

/-- An integer with more lines behind it is read as the same integer or not at all. -/
theorem readInt_append {s t : List Char} {m n : ℤ} (hn : readInt s = some n) (hm : readInt (s ++ '\n' :: t) = some m) :
    m = n := by
  rw [readInt] at hn hm
  cases hs : s.dropWhile isSpace with
  | nil =>
    rw [hs] at hn
    cases hn
  | cons d rest =>
    rw [dropWhile_append_cons _ hs, sign_append] at hm
    rw [hs] at hn
    exact readDigits_append hn hm

/-! ## Where a pattern starts -/

/-- What precedes the first occurrence of a pattern, and what follows it, is determined by the text. -/
theorem first_unique {x₁ x₂ y₁ y₂ : List α} (h : x₁ ++ p ++ y₁ = x₂ ++ p ++ y₂)
    (h₁ : ∀ i < x₁.length, ¬p <+: (x₁ ++ p ++ y₁).drop i) (h₂ : ∀ i < x₂.length, ¬p <+: (x₂ ++ p ++ y₂).drop i) :
    x₁ = x₂ ∧ y₁ = y₂ := by
  have hat (x y : List α) : p <+: (x ++ p ++ y).drop x.length := by
    rw [List.append_assoc, List.drop_left]
    exact List.prefix_append _ _
  have hlen : x₁.length = x₂.length := by
    rcases lt_trichotomy x₁.length x₂.length with hlt | heq | hgt
    · exact absurd (h ▸ hat x₁ y₁) (h₂ _ hlt)
    · exact heq
    · exact absurd (h ▸ hat x₂ y₂) (h₁ _ hgt)
  rw [List.append_assoc, List.append_assoc] at h
  obtain ⟨hx, hrest⟩ := List.append_inj h hlen
  exact ⟨hx, List.append_cancel_left hrest⟩

/-- A pattern without the break that starts before a break ends before it. -/
theorem prefix_of_break (hc : c ∉ p) (h : p <+: q ++ c :: r) : p <+: q := by
  rcases le_total p.length q.length with hle | hge
  · exact List.prefix_of_prefix_length_le h (List.prefix_append _ _) hle
  · obtain ⟨z, rfl⟩ := List.prefix_of_prefix_length_le (List.prefix_append q _) h hge
    cases z with
    | nil => rw [List.append_nil]
    | cons d z =>
      obtain ⟨rfl, -⟩ := List.cons_prefix_cons.1 ((List.prefix_append_right_inj q).1 h)
      exact absurd (List.mem_append_right _ List.mem_cons_self) hc

/-- The lines of a text, each with the break before it. -/
def lines (c : α) (es : List (List α)) : List α := es.flatMap (c :: ·)

theorem lines_append (c : α) (es es' : List (List α)) : lines c (es ++ es') = lines c es ++ lines c es' := List.flatMap_append

theorem lines_cons (c : α) (e : List α) (es : List (List α)) : lines c (e :: es) = c :: e ++ lines c es := List.flatMap_cons

/-- No line of a text starts with a pattern, or holds it behind a break: so it starts nowhere behind a break. -/
theorem not_prefix_lines {es : List (List α)} (hc : c ∉ p) (hes : ∀ e ∈ es, ¬p <+: e ∧ ¬(c :: p) <:+: e) :
    ∀ i < (lines c es).length, ¬(c :: p) <+: (lines c es ++ c :: r).drop i := by
  induction es with
  | nil => intro i hi; cases hi
  | cons e es ih =>
    obtain ⟨hstart, hinside⟩ := hes e List.mem_cons_self
    -- what follows the line begins with a break
    obtain ⟨rest, hrest⟩ : ∃ rest, lines c es ++ c :: r = c :: rest := by
      cases es with
      | nil => exact ⟨r, rfl⟩
      | cons e' es => exact ⟨_, by rw [lines_cons]; rfl⟩
    intro i hi hp
    rw [lines_cons, List.append_assoc, hrest] at hp
    rcases lt_or_ge i (c :: e).length with hlt | hge
    · rw [List.drop_append_of_le_length hlt.le] at hp
      cases i with
      | zero =>
        rw [List.drop_zero, List.cons_append] at hp
        exact hstart (prefix_of_break hc (List.cons_prefix_cons.1 hp).2)
      | succ j =>
        rw [List.drop_succ_cons] at hp
        obtain ⟨d, q, hq⟩ : ∃ d q, e.drop j = d :: q :=
          List.exists_cons_of_ne_nil (by rw [Ne, List.drop_eq_nil_iff]; simpa using hlt)
        rw [hq, List.cons_append] at hp
        obtain ⟨rfl, hinner⟩ := List.cons_prefix_cons.1 hp
        refine hinside (List.IsInfix.trans ?_ (List.drop_suffix j e).isInfix)
        rw [hq]
        exact (List.cons_prefix_cons.2 ⟨rfl, prefix_of_break hc hinner⟩).isInfix
    · rw [List.drop_append, List.drop_eq_nil_of_le hge, List.nil_append, ← hrest] at hp
      refine ih (fun e he => hes e (List.mem_cons_of_mem _ he)) (i - (c :: e).length) ?_ hp
      rw [lines_cons, List.length_append] at hi
      omega

/-- Two texts that are the same up to where each is cut off at a break: they are
the same, or one goes on behind a break where the other ends. -/
theorem cut_at_break {u₁ u₂ b₁ b₂ : List α} (h : u₁ ++ b₁ = u₂ ++ b₂) (h₁ : ∀ d ∈ b₁.head?, d = c)
    (h₂ : ∀ d ∈ b₂.head?, d = c) : u₁ = u₂ ∨ (∃ t, u₂ = u₁ ++ c :: t) ∨ ∃ t, u₁ = u₂ ++ c :: t := by
  rcases List.append_eq_append_iff.1 h with ⟨z, hu, hb⟩ | ⟨z, hu, hb⟩
  · cases z with
    | nil => exact .inl (by rw [hu, List.append_nil])
    | cons d z =>
      obtain rfl := h₁ d (by rw [hb]; rfl)
      exact .inr (.inl ⟨z, hu⟩)
  · cases z with
    | nil => exact .inl (by rw [hu, List.append_nil])
    | cons d z =>
      obtain rfl := h₂ d (by rw [hb]; rfl)
      exact .inr (.inr ⟨z, hu⟩)

theorem head_lines {es : List (List α)} : ∀ d ∈ (lines c es).head?, d = c := by
  cases es with
  | nil => intro d hd; cases hd
  | cons e es =>
    rw [lines_cons]
    intro d hd
    cases hd
    rfl

end

end Text
