import Garant.Lib.Text
/-!
# Reading JSON

`loads` reads a JSON text the way Python's `json.loads` does: white space around
tokens, `NaN` and `Infinity`, escapes by code unit, no control characters in
strings, nothing but white space after the value. Parsers take what they read
from the front of a list of characters. What is read up to a line break does not
depend on what follows it (`Extends`), so a text read as one value is never read
as another when more lines are put behind it (`loads_append`).
-/

namespace Json

/-! ## Values -/

/-- A JSON value. A float is kept as its literal, a string by its code points,
and an object as the list of its pairs, of which the last of a key counts. -/
inductive Value
  | null
  | bool (b : Bool)
  | int (n : ℤ)
  | float (literal : List Char)
  | str (s : List ℕ)
  | arr (xs : List Value)
  | obj (kvs : List (List ℕ × Value))

/-- The code points of a text. -/
def codePoints (s : List Char) : List ℕ := s.map Char.toNat

/-- The value of a key, if the value is an object with the key. -/
def Value.get (v : Value) (key : List Char) : Option Value :=
  match v with
  | obj kvs => (kvs.reverse.find? fun kv => kv.1 = codePoints key).map (·.2)
  | _ => none

def Value.toInt : Value → Option ℤ
  | int n => some n
  | _ => none

/-! ## Parsers -/

/-- Takes a value from the front of a text, or fails. -/
abbrev Parser := StateT (List Char) Option

def isWs (c : Char) : Bool := c = ' ' ∨ c = '\t' ∨ c = '\n' ∨ c = '\r'

def isDigit (c : Char) : Bool := '0' ≤ c ∧ c ≤ '9'

def next : Parser Char
  | [] => none
  | c :: s => some (c, s)

/-- The next character that is not white space. -/
def token (s : List Char) : Option (Char × List Char) := next (s.dropWhile isWs)

def digits : Parser (List Char) := fun s => some (s.takeWhile isDigit, s.dropWhile isDigit)

/-- The rest of a word whose value is `v`. -/
def word (w : List Char) (v : Value) : Parser Value := fun s =>
  if w.isPrefixOf s then some (v, s.drop w.length) else none

/-! ## Strings -/

def hexDigit : Parser ℕ := do
  let c ← next
  fun s => (Text.hexValue c).map fun n => (n, s)

/-- The code unit behind `\u`. -/
def codeUnit : Parser ℕ := do
  let a ← hexDigit
  let b ← hexDigit
  let c ← hexDigit
  let d ← hexDigit
  pure (((a * 16 + b) * 16 + c) * 16 + d)

/-- What follows a backslash. -/
def escape : Parser ℕ := do
  let c ← next
  if c = 'u' then codeUnit
  else if c = '"' ∨ c = '\\' ∨ c = '/' then pure c.toNat
  else if c = 'b' then pure 8
  else if c = 'f' then pure 12
  else if c = 'n' then pure 10
  else if c = 'r' then pure 13
  else if c = 't' then pure 9
  else failure

/-- The units of a string, up to its closing quote. -/
def units : ℕ → Parser (List ℕ)
  | 0 => failure
  | n + 1 => do
    let c ← next
    if c = '"' then pure []
    else if c = '\\' then do
      let u ← escape
      let us ← units n
      pure (u :: us)
    else if c.toNat < 0x20 then failure
    else do
      let us ← units n
      pure (c.toNat :: us)

/-- Two units that are a surrogate pair are one code point. -/
def joinSurrogates : List ℕ → List ℕ
  | high :: low :: s =>
    if 0xD800 ≤ high ∧ high ≤ 0xDBFF ∧ 0xDC00 ≤ low ∧ low ≤ 0xDFFF then
      (0x10000 + (high - 0xD800) * 0x400 + (low - 0xDC00)) :: joinSurrogates s
    else high :: joinSurrogates (low :: s)
  | s => s

def string (n : ℕ) : Parser (List ℕ) := do
  let us ← units n
  pure (joinSurrogates us)

/-! ## Numbers -/

/-- The fraction, if there is one. -/
def fraction : Parser (List Char) := fun s =>
  match s with
  | [] => some ([], [])
  | c :: s =>
    if c = '.' ∧ s.takeWhile isDigit ≠ [] then some (c :: s.takeWhile isDigit, s.dropWhile isDigit)
    else some ([], c :: s)

/-- The sign of an exponent, if there is one. -/
def exponentSign : List Char → List Char × List Char
  | '+' :: s => (['+'], s)
  | '-' :: s => (['-'], s)
  | s => ([], s)

/-- The exponent, if there is one. -/
def exponent : Parser (List Char) := fun s =>
  match s with
  | [] => some ([], [])
  | e :: s =>
    let (sign, rest) := exponentSign s
    if (e = 'e' ∨ e = 'E') ∧ rest.takeWhile isDigit ≠ [] then
      some (e :: sign ++ rest.takeWhile isDigit, rest.dropWhile isDigit)
    else some ([], e :: s)

def natOf (ds : List Char) : ℕ := ds.foldl (fun n d => n * 10 + (d.toNat - '0'.toNat)) 0

/-- No integer has more digits, `sys.int_info.default_max_str_digits`. -/
def maxDigits : ℕ := 4300

/-- The digits before the point, which begin with `c`. -/
def whole (c : Char) : Parser (List Char) :=
  if c = '0' then pure ['0']
  else if isDigit c then do
    let ds ← digits
    pure (c :: ds)
  else failure

/-- The number that begins with `c`, behind the sign if it has one. -/
def number (negative : Bool) (c : Char) : Parser Value := do
  let whole ← whole c
  let frac ← fraction
  let exp ← exponent
  if frac = [] ∧ exp = [] then
    if maxDigits < whole.length then failure
    else pure (.int (if negative then -natOf whole else natOf whole))
  else pure (.float ((if negative then ['-'] else []) ++ whole ++ frac ++ exp))

/-- What follows a minus sign. -/
def negated : Parser Value := do
  let c ← next
  if c = 'I' then word "nfinity".toList (.float "-Infinity".toList) else number true c

/-! ## Values -/

/-- The elements of an array, the first of which begins with `c`. -/
def elements (value : Char → Parser Value) : ℕ → Char → Parser (List Value)
  | 0, _ => failure
  | n + 1, c => do
    let v ← value c
    let d ← token
    if d = ']' then pure [v]
    else if d = ',' then do
      let c ← token
      let vs ← elements value n c
      pure (v :: vs)
    else failure

/-- The pairs of an object, the first of which begins with `c`. -/
def members (value : Char → Parser Value) : ℕ → Char → Parser (List (List ℕ × Value))
  | 0, _ => failure
  | n + 1, c =>
    if c = '"' then do
      let k ← string n
      let d ← token
      if d = ':' then do
        let c ← token
        let v ← value c
        let d ← token
        if d = '}' then pure [(k, v)]
        else if d = ',' then do
          let c ← token
          let kvs ← members value n c
          pure ((k, v) :: kvs)
        else failure
      else failure
    else failure

/-- The value that begins with `c`. Each turn takes a character, so the length of the text is fuel enough. -/
def value : ℕ → Char → Parser Value
  | 0, _ => failure
  | n + 1, c =>
    if c = '"' then do
      let s ← string n
      pure (.str s)
    else if c = '{' then do
      let d ← token
      if d = '}' then pure (.obj [])
      else do
        let kvs ← members (value n) n d
        pure (.obj kvs)
    else if c = '[' then do
      let d ← token
      if d = ']' then pure (.arr [])
      else do
        let vs ← elements (value n) n d
        pure (.arr vs)
    else if c = 'n' then word "ull".toList .null
    else if c = 't' then word "rue".toList (.bool true)
    else if c = 'f' then word "alse".toList (.bool false)
    else if c = 'N' then word "aN".toList (.float "NaN".toList)
    else if c = 'I' then word "nfinity".toList (.float "Infinity".toList)
    else if c = '-' then negated
    else number false c

def document (n : ℕ) : Parser Value := do
  let c ← token
  value n c

/-- `json.loads`. -/
def loads (s : List Char) : Option Value :=
  if s.head? = some '\uFEFF' then none
  else match document (s.length + 1) s with
    | some (v, rest) => if rest.all isWs then some v else none
    | none => none

/-! ## What follows a line break -/

section
variable {α β : Type} {p p' q : Parser α}

/-- What `p` reads of a text, `q` reads of it too when a line break and more is put behind it. -/
def Extends (p q : Parser α) : Prop :=
  ∀ s v r t, p s = some (v, r) → q (s ++ '\n' :: t) = some (v, r ++ '\n' :: t)

namespace Extends

theorem pure (a : α) : Extends (Pure.pure a) (Pure.pure a) := by
  intro s v r t h
  cases h
  rfl

theorem failure : Extends (Alternative.failure : Parser α) q := by
  intro s v r t h
  cases h

theorem bind {f f' : α → Parser β} (hp : Extends p p') (hf : ∀ a, Extends (f a) (f' a)) :
    Extends (p >>= f) (p' >>= f') := by
  intro s v r t h
  obtain ⟨⟨a, rest⟩, ha, hrest⟩ := Option.bind_eq_some_iff.1 h
  show (p' (s ++ '\n' :: t)).bind (fun x => f' x.1 x.2) = _
  rw [hp s a rest t ha, Option.bind_some]
  exact hf a rest v r t hrest

theorem ite {c : Prop} [Decidable c] {q' : Parser α} (hp : Extends p p') (hq : Extends q q') :
    Extends (if c then p else q) (if c then p' else q') := by
  split
  · exact hp
  · exact hq

end Extends

theorem next_extends : Extends next next := by
  intro s v r t h
  cases s with
  | nil => cases h
  | cons c s =>
    cases h
    rfl

theorem token_extends : Extends token token := by
  intro s v r t h
  rw [token] at h ⊢
  cases hs : s.dropWhile isWs with
  | nil =>
    rw [hs] at h
    cases h
  | cons c rest =>
    rw [hs] at h
    cases h
    rw [Text.dropWhile_append_cons _ hs]
    rfl

/-- No run of digits crosses a line break. -/
theorem digits_append (s t : List Char) :
    (s ++ '\n' :: t).takeWhile isDigit = s.takeWhile isDigit ∧
      (s ++ '\n' :: t).dropWhile isDigit = s.dropWhile isDigit ++ '\n' :: t := Text.run_append (by decide) s t

theorem digits_extends : Extends digits digits := by
  intro s v r t h
  cases h
  obtain ⟨htake, hdrop⟩ := digits_append s t
  rw [digits, htake, hdrop]

theorem word_extends {w : List Char} {x : Value} : Extends (word w x) (word w x) := by
  intro s v r t h
  rw [word] at h ⊢
  split at h
  · rename_i hw
    cases h
    obtain ⟨rest, rfl⟩ := List.isPrefixOf_iff_prefix.1 hw
    rw [if_pos (List.isPrefixOf_iff_prefix.2 ⟨rest ++ '\n' :: t, (List.append_assoc _ _ _).symm⟩), List.append_assoc,
      List.drop_left, List.drop_left]
  · cases h

theorem hexDigit_extends : Extends hexDigit hexDigit := by
  refine next_extends.bind fun c => ?_
  intro s v r t h
  obtain ⟨n, hn, heq⟩ := Option.map_eq_some_iff.1 h
  cases heq
  show (Text.hexValue c).map _ = _
  rw [hn, Option.map_some]

theorem codeUnit_extends : Extends codeUnit codeUnit :=
  hexDigit_extends.bind fun _ => hexDigit_extends.bind fun _ => hexDigit_extends.bind fun _ =>
    hexDigit_extends.bind fun _ => .pure _

theorem escape_extends : Extends escape escape :=
  next_extends.bind fun _ => .ite codeUnit_extends (.ite (.pure _) (.ite (.pure _) (.ite (.pure _) (.ite (.pure _)
    (.ite (.pure _) (.ite (.pure _) .failure))))))

theorem units_extends {n m : ℕ} (h : n ≤ m) : Extends (units n) (units m) := by
  induction n generalizing m with
  | zero => exact .failure
  | succ n ih =>
    obtain ⟨m, rfl⟩ : ∃ k, m = k + 1 := ⟨m - 1, by omega⟩
    have hrest := ih (m := m) (by omega)
    exact next_extends.bind fun c => .ite (.pure _) (.ite
      (escape_extends.bind fun _ => hrest.bind fun _ => .pure _) (.ite .failure (hrest.bind fun _ => .pure _)))

theorem string_extends {n m : ℕ} (h : n ≤ m) : Extends (string n) (string m) := (units_extends h).bind fun _ => .pure _

theorem fraction_extends : Extends fraction fraction := by
  intro s v r t h
  cases s with
  | nil =>
    cases h
    rfl
  | cons c s =>
    obtain ⟨htake, hdrop⟩ := digits_append s t
    rw [fraction] at h
    rw [List.cons_append, fraction, htake, hdrop]
    split at h
    · rename_i hc
      cases h
      rw [if_pos hc]
    · rename_i hc
      cases h
      rw [if_neg hc]
      rfl

theorem exponentSign_append (s t : List Char) :
    exponentSign (s ++ '\n' :: t) = ((exponentSign s).1, (exponentSign s).2 ++ '\n' :: t) := by
  cases s with
  | nil => rfl
  | cons c s =>
    by_cases hplus : c = '+'
    · rw [hplus]
      rfl
    · by_cases hminus : c = '-'
      · rw [hminus]
        rfl
      · simp [exponentSign, hplus, hminus]

theorem exponent_extends : Extends exponent exponent := by
  intro s v r t h
  cases s with
  | nil =>
    cases h
    rfl
  | cons e s =>
    obtain ⟨htake, hdrop⟩ := digits_append (exponentSign s).2 t
    simp only [exponent] at h
    rw [List.cons_append]
    simp only [exponent, exponentSign_append, htake, hdrop]
    split at h
    · rename_i he
      cases h
      rw [if_pos he]
    · rename_i he
      cases h
      rw [if_neg he]
      rfl

theorem whole_extends {c : Char} : Extends (whole c) (whole c) :=
  .ite (.pure _) (.ite (digits_extends.bind fun _ => .pure _) .failure)

theorem number_extends {negative : Bool} {c : Char} : Extends (number negative c) (number negative c) :=
  whole_extends.bind fun _ => fraction_extends.bind fun _ => exponent_extends.bind fun _ =>
    .ite (.ite .failure (.pure _)) (.pure _)

theorem negated_extends : Extends negated negated :=
  next_extends.bind fun _ => .ite word_extends number_extends

theorem elements_extends {f g : Char → Parser Value} (hf : ∀ c, Extends (f c) (g c)) {n m : ℕ} (h : n ≤ m) (c : Char) :
    Extends (elements f n c) (elements g m c) := by
  induction n generalizing m c with
  | zero => exact .failure
  | succ n ih =>
    obtain ⟨m, rfl⟩ : ∃ k, m = k + 1 := ⟨m - 1, by omega⟩
    refine (hf c).bind fun v => token_extends.bind fun d => .ite (.pure _) (.ite ?_ .failure)
    exact token_extends.bind fun c => (ih (by omega) c).bind fun _ => .pure _

theorem members_extends {f g : Char → Parser Value} (hf : ∀ c, Extends (f c) (g c)) {n m : ℕ} (h : n ≤ m) (c : Char) :
    Extends (members f n c) (members g m c) := by
  induction n generalizing m c with
  | zero => exact .failure
  | succ n ih =>
    obtain ⟨m, rfl⟩ : ∃ k, m = k + 1 := ⟨m - 1, by omega⟩
    refine .ite ?_ .failure
    refine (string_extends (by omega)).bind fun k => token_extends.bind fun d => .ite ?_ .failure
    refine token_extends.bind fun c => (hf c).bind fun v => token_extends.bind fun d => .ite (.pure _) (.ite ?_ .failure)
    exact token_extends.bind fun c => (ih (by omega) c).bind fun _ => .pure _

theorem value_extends {n m : ℕ} (h : n ≤ m) (c : Char) : Extends (value n c) (value m c) := by
  induction n generalizing m c with
  | zero => exact .failure
  | succ n ih =>
    obtain ⟨m, rfl⟩ : ∃ k, m = k + 1 := ⟨m - 1, by omega⟩
    have hnm : n ≤ m := by omega
    refine .ite ((string_extends hnm).bind fun _ => .pure _) (.ite ?object (.ite ?array ?rest))
    case object =>
      exact token_extends.bind fun d => .ite (.pure _)
        ((members_extends (fun c => ih hnm c) hnm d).bind fun _ => .pure _)
    case array =>
      exact token_extends.bind fun d => .ite (.pure _)
        ((elements_extends (fun c => ih hnm c) hnm d).bind fun _ => .pure _)
    case rest =>
      exact .ite word_extends (.ite word_extends (.ite word_extends (.ite word_extends (.ite word_extends
        (.ite negated_extends number_extends)))))

/-- A text that is read, with more lines behind it, is read as the same value or not at all. -/
theorem loads_append {s t : List Char} {v w : Value} (hv : loads s = some v) (hw : loads (s ++ '\n' :: t) = some w) :
    w = v := by
  rw [loads] at hv hw
  split at hv
  · cases hv
  split at hw
  · cases hw
  have hmore : Extends (document (s.length + 1)) (document ((s ++ '\n' :: t).length + 1)) := by
    refine token_extends.bind fun c => value_extends ?_ c
    rw [List.length_append]
    omega
  cases hs : document (s.length + 1) s with
  | none =>
    rw [hs] at hv
    cases hv
  | some x =>
    obtain ⟨v', rest⟩ := x
    rw [hmore s v' rest t hs] at hw
    rw [hs] at hv
    simp only [Option.ite_none_right_eq_some, Option.some.injEq] at hv hw
    exact hw.2.symm.trans hv.2

end

end Json
