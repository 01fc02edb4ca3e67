import Garant.Lib.Sha
import Garant.Totp
/-!
# Verifying a TOTP code, to the bytes

`verify_totp_and_counter` with what it calls and what that raises: the decoding
of the secret, HOTP over HMAC-SHA1, and `hmac.compare_digest`, which takes no
string with a character beyond ASCII. `isdigit` lets such characters through.
`verify_exact_iff` says for which codes and times the answer is the one wanted,
and `verify_eq` that the model of `Totp` answers the same.
-/
open Sha

namespace Garant

namespace TotpCodes

/-- What `verify_totp_and_counter` can raise. -/
inductive Error
  /-- `ValueError` and `binascii.Error`. -/
  | value_error
  /-- `struct.error`. -/
  | struct_error
  | index_error
  | type_error
deriving DecidableEq

/-! ## Strings -/

/-- The characters `str.isdigit` accepts, from and to: digits of all scripts,
superscripts, subscripts and circled digits. -/
def digitRanges : List (ℕ × ℕ) :=
  [(0x30, 0x39), (0xb2, 0xb3), (0xb9, 0xb9), (0x660, 0x669), (0x6f0, 0x6f9), (0x7c0, 0x7c9), (0x966, 0x96f),
    (0x9e6, 0x9ef), (0xa66, 0xa6f), (0xae6, 0xaef), (0xb66, 0xb6f), (0xbe6, 0xbef), (0xc66, 0xc6f), (0xce6, 0xcef),
    (0xd66, 0xd6f), (0xde6, 0xdef), (0xe50, 0xe59), (0xed0, 0xed9), (0xf20, 0xf29), (0x1040, 0x1049),
    (0x1090, 0x1099), (0x1369, 0x1371), (0x17e0, 0x17e9), (0x1810, 0x1819), (0x1946, 0x194f), (0x19d0, 0x19da),
    (0x1a80, 0x1a89), (0x1a90, 0x1a99), (0x1b50, 0x1b59), (0x1bb0, 0x1bb9), (0x1c40, 0x1c49), (0x1c50, 0x1c59),
    (0x2070, 0x2070), (0x2074, 0x2079), (0x2080, 0x2089), (0x2460, 0x2468), (0x2474, 0x247c), (0x2488, 0x2490),
    (0x24ea, 0x24ea), (0x24f5, 0x24fd), (0x24ff, 0x24ff), (0x2776, 0x277e), (0x2780, 0x2788), (0x278a, 0x2792),
    (0xa620, 0xa629), (0xa8d0, 0xa8d9), (0xa900, 0xa909), (0xa9d0, 0xa9d9), (0xa9f0, 0xa9f9), (0xaa50, 0xaa59),
    (0xabf0, 0xabf9), (0xff10, 0xff19), (0x104a0, 0x104a9), (0x10a40, 0x10a43), (0x10d30, 0x10d39),
    (0x10e60, 0x10e68), (0x11052, 0x1105a), (0x11066, 0x1106f), (0x110f0, 0x110f9), (0x11136, 0x1113f),
    (0x111d0, 0x111d9), (0x112f0, 0x112f9), (0x11450, 0x11459), (0x114d0, 0x114d9), (0x11650, 0x11659),
    (0x116c0, 0x116c9), (0x11730, 0x11739), (0x118e0, 0x118e9), (0x11950, 0x11959), (0x11c50, 0x11c59),
    (0x11d50, 0x11d59), (0x11da0, 0x11da9), (0x11f50, 0x11f59), (0x16a60, 0x16a69), (0x16ac0, 0x16ac9),
    (0x16b50, 0x16b59), (0x1d7ce, 0x1d7ff), (0x1e140, 0x1e149), (0x1e2f0, 0x1e2f9), (0x1e4f0, 0x1e4f9),
    (0x1e950, 0x1e959), (0x1f100, 0x1f10a), (0x1fbf0, 0x1fbf9)]

def isDigitChar (c : Char) : Bool := digitRanges.any fun r => r.1 ≤ c.toNat && c.toNat ≤ r.2

/-- `str.isdigit`. -/
def isdigit (s : String) : Bool := s ≠ "" && s.toList.all isDigitChar

/-- `str.isascii`. -/
def isascii (s : String) : Bool := s.toList.all fun c => c.toNat < 128

/-- `hmac.compare_digest` of two strings. -/
def compareDigest (a b : String) : Except Error Bool :=
  if isascii a ∧ isascii b then pure (a = b) else throw .type_error

/-- `str.zfill`, of a string without a sign. -/
def zfill (s : List Char) (width : ℕ) : List Char := List.replicate (width - s.length) '0' ++ s

/-! ## The secret -/

/-- A character of the base32 alphabet. -/
def b32Value (c : Char) : Option ℕ :=
  if 'A' ≤ c ∧ c ≤ 'Z' then some (c.toNat - 'A'.toNat)
  else if '2' ≤ c ∧ c ≤ '7' then some (c.toNat - '2'.toNat + 26)
  else none

def b32Quantum (quanta : List Char) : Except Error ℕ :=
  quanta.foldlM (fun acc c => match b32Value c with
    | some v => pure (acc * 32 + v)
    | none => throw .value_error) 0

/-- `base64.b32decode`, with `casefold`. -/
def b32decode (s : String) : Except Error (List UInt8) := do
  if isascii s = false then throw .value_error
  if s.length % 8 ≠ 0 then throw .value_error
  let digits := ((s.toList.map Char.toUpper).reverse.dropWhile (· = '=')).reverse
  let padchars := s.length - digits.length
  let quanta ← (chunks 8 ((digits.length + 7) / 8) digits).mapM b32Quantum
  if padchars ∉ [0, 1, 3, 4, 6] then throw .value_error
  let decoded := quanta.flatMap (bigEndian 5)
  match quanta.getLast? with
  | none => pure decoded
  | some acc =>
    if padchars = 0 then pure decoded
    else pure (decoded.dropLast.dropLast.dropLast.dropLast.dropLast ++
      (bigEndian 5 (acc * 32 ^ padchars)).take ((43 - 5 * padchars) / 8))

/-- `_b32decode_padded`. Letters beyond ASCII are not upper-cased; no secret has one. -/
def b32decodePadded (secret : String) : Except Error (List UInt8) :=
  let secret := (strip (String.ofList (secret.toList.map Char.toUpper))).toList.filter (· ≠ ' ')
  let pad := (8 - secret.length % 8) % 8
  b32decode (String.ofList (secret ++ List.replicate pad '='))

/-! ## The code of a counter -/

def byteAt (digest : List UInt8) (i : ℕ) : Except Error ℕ :=
  match digest[i]? with
  | some b => pure b.toNat
  | none => throw .index_error

/-- `_hotp`. -/
def hotp (key : List UInt8) (counter : ℤ) : Except Error String := do
  if counter < 0 ∨ 2 ^ 64 ≤ counter then throw .struct_error
  let digest := hmac sha1 key (bigEndian 8 counter.toNat)
  let last ← byteAt digest (digest.length - 1)
  let offset := last &&& 0x0F
  let b₀ ← byteAt digest offset
  let b₁ ← byteAt digest (offset + 1)
  let b₂ ← byteAt digest (offset + 2)
  let b₃ ← byteAt digest (offset + 3)
  let code_int := (b₀ &&& 0x7F) <<< 24 ||| b₁ <<< 16 ||| b₂ <<< 8 ||| b₃
  let code := code_int % 10 ^ totpDigits
  pure (String.ofList (zfill (Nat.toDigits 10 code) totpDigits))

/-- `int(at) // _PERIOD`. -/
def counterAt (at_ : ℚ) : ℤ := at_.num.tdiv at_.den / totpPeriod

/-- The counters of the drift window. -/
def driftWindow (counter : ℤ) : List ℤ := [-driftWindows, 0, driftWindows].map (counter + ·)

/-- One turn of the loop; the comparison is made in every turn. -/
def compareWindow (key : List UInt8) (code : String) (matched_counter : Option ℤ) (candidate_counter : ℤ) :
    Except Error (Option ℤ) := do
  let candidate ← hotp key candidate_counter
  let matched_now ← compareDigest candidate code
  pure (if matched_now ∧ matched_counter = none then some candidate_counter else matched_counter)

/-- `verify_totp_and_counter`. -/
def verifyTotpAndCounter (secret code : String) (at_ : ℚ) : Except Error (Option ℤ) :=
  if secret = "" ∨ code = "" then pure none
  else
    let code := strip code
    if isdigit code = false ∨ code.length ≠ totpDigits then pure none
    else do
      let counter := counterAt at_
      let key ← b32decodePadded secret
      (driftWindow counter).foldlM (compareWindow key code) none

/-! ## HOTP values -/

section
variable {key : List UInt8} {code : String} {c counter : ℤ} {at_ : ℚ} {secret : String}

theorem ok_bind {α β : Type} (a : α) (f : α → Except Error β) : (.ok a >>= f) = f a := rfl

theorem byteAt_ok {digest : List UInt8} {i : ℕ} (h : i < digest.length) :
    byteAt digest i = .ok (digest.get ⟨i, h⟩).toNat := by
  rw [byteAt, List.getElem?_eq_getElem h]
  rfl

theorem isDigitChar_of_isDigit {d : Char} (h : d.isDigit = true) : isDigitChar d = true ∧ d.toNat < 128 := by
  obtain ⟨hlow, hhigh⟩ : 48 ≤ d.toNat ∧ d.toNat ≤ 57 := by
    simpa [Char.isDigit, Char.le_def, UInt32.le_iff_toNat_le] using h
  refine ⟨?_, by omega⟩
  refine List.any_eq_true.2 ⟨(0x30, 0x39), List.mem_cons_self, ?_⟩
  simpa using ⟨hlow, hhigh⟩

/-- Six characters, all of them ASCII digits. -/
theorem zfill_digits {n : ℕ} (hn : n < 10 ^ totpDigits) :
    (zfill (Nat.toDigits 10 n) totpDigits).length = totpDigits ∧
      ∀ d ∈ zfill (Nat.toDigits 10 n) totpDigits, d.isDigit = true := by
  have hlen : (Nat.toDigits 10 n).length ≤ totpDigits := (Nat.length_toDigits_le_iff (by decide) (by decide)).2 hn
  refine ⟨?_, ?_⟩
  · rw [zfill, List.length_append, List.length_replicate]
    omega
  · intro d hd
    rcases List.mem_append.1 hd with hd | hd
    · rw [List.eq_of_mem_replicate hd]
      rfl
    · exact Nat.isDigit_of_mem_toDigits (by decide) (by decide) hd

/-- The digest has a byte at every place the truncation reads. -/
theorem hotp_eq (key : List UInt8) (h0 : 0 ≤ c) (h : c < 2 ^ 64) :
    ∃ n < 10 ^ totpDigits, hotp key c = .ok (String.ofList (zfill (Nat.toDigits 10 n) totpDigits)) := by
  have hlen : (hmac sha1 key (bigEndian 8 c.toNat)).length = 20 := hmac_length sha1_length _ _
  rw [hotp, if_neg (by omega)]
  simp only [hlen]
  generalize hmac sha1 key (bigEndian 8 c.toNat) = digest at hlen
  rw [byteAt_ok (i := 20 - 1) (by omega), ok_bind]
  generalize (digest.get ⟨20 - 1, _⟩).toNat = last
  have hoffset : last &&& 0x0F ≤ 15 := Nat.and_le_right
  rw [byteAt_ok (i := last &&& 0x0F) (by omega), ok_bind, byteAt_ok (i := (last &&& 0x0F) + 1) (by omega), ok_bind,
    byteAt_ok (i := (last &&& 0x0F) + 2) (by omega), ok_bind, byteAt_ok (i := (last &&& 0x0F) + 3) (by omega), ok_bind]
  exact ⟨_, Nat.mod_lt _ (by decide), rfl⟩

theorem hotp_error (h : ¬(0 ≤ c ∧ c < 2 ^ 64)) : hotp key c = .error .struct_error := by
  rw [hotp, if_pos (by omega)]
  rfl

/-- A HOTP value is six ASCII digits. -/
theorem hotp_digits (h : hotp key c = .ok code) : isdigit code = true ∧ code.length = totpDigits ∧ isascii code = true := by
  have hrange : 0 ≤ c ∧ c < 2 ^ 64 := by
    by_contra hc
    rw [hotp_error hc] at h
    cases h
  obtain ⟨n, hn, heq⟩ := hotp_eq key hrange.1 hrange.2
  rw [heq] at h
  cases h
  obtain ⟨hlen, hdigits⟩ := zfill_digits hn
  refine ⟨?_, ?_, ?_⟩
  · rw [isdigit, Bool.and_eq_true, decide_eq_true_eq, String.toList_ofList, List.all_eq_true]
    refine ⟨?_, fun d hd => (isDigitChar_of_isDigit (hdigits d hd)).1⟩
    intro hempty
    have hnil := congrArg String.length hempty
    rw [String.length_ofList, hlen] at hnil
    cases hnil
  · rw [String.length_ofList, hlen]
  · rw [isascii, String.toList_ofList, List.all_eq_true]
    exact fun d hd => decide_eq_true (isDigitChar_of_isDigit (hdigits d hd)).2

/-! ## The loop -/

/-- The first counter of a list whose HOTP value is the code. -/
def firstMatch (key : List UInt8) (code : String) (cs : List ℤ) : Option ℤ :=
  cs.find? fun c => (hotp key c).toOption = some code

theorem firstMatch_cons (cs : List ℤ) :
    firstMatch key code (c :: cs) = (firstMatch key code [c]).or (firstMatch key code cs) :=
  (List.find?_append : ([c] ++ cs).find? _ = _)

theorem compareWindow_eq {m : Option ℤ} (hcode : isascii code = true) (h0 : 0 ≤ c) (h : c < 2 ^ 64) :
    compareWindow key code m c = .ok (m.or (firstMatch key code [c])) := by
  obtain ⟨n, hn, heq⟩ := hotp_eq key h0 h
  have hascii := (hotp_digits heq).2.2
  rw [compareWindow, heq, ok_bind, compareDigest, if_pos ⟨hascii, hcode⟩, firstMatch, List.find?_singleton, heq]
  cases m with
  | none => simp [pure, Except.pure, ok_bind, Except.toOption]
  | some m => simp [pure, Except.pure, ok_bind]

/-- With an ASCII code and counters of eight bytes the loop raises nothing and remembers the first match. -/
theorem compareAll_eq {cs : List ℤ} {m : Option ℤ} (hcode : isascii code = true)
    (hcs : ∀ c ∈ cs, 0 ≤ c ∧ c < 2 ^ 64) :
    cs.foldlM (compareWindow key code) m = .ok (m.or (firstMatch key code cs)) := by
  induction cs generalizing m with
  | nil => cases m <;> rfl
  | cons c cs ih =>
    obtain ⟨h0, h⟩ := hcs c List.mem_cons_self
    rw [List.foldlM_cons, compareWindow_eq hcode h0 h, ok_bind, ih fun c hc => hcs c (List.mem_cons_of_mem _ hc),
      firstMatch_cons cs, Option.or_assoc]

/-! ## The answer -/

/-- A secret that is there and decodes. -/
structure WellFormed (secret : String) (key : List UInt8) : Prop where
  nonempty : secret ≠ ""
  decodes : b32decodePadded secret = .ok key

/-- The smallest counter of the window whose HOTP value is the code, if there is one. -/
def Exact (key : List UInt8) (code : String) (counter : ℤ) : Option ℤ → Prop
  | none => ∀ c ∈ driftWindow counter, hotp key c ≠ .ok code
  | some m => m ∈ driftWindow counter ∧ hotp key m = .ok code ∧
    ∀ c ∈ driftWindow counter, hotp key c = .ok code → m ≤ c

/-- The code gets past the checks that come before the comparison. -/
def Compared (code : String) : Prop := isdigit (strip code) = true ∧ (strip code).length = totpDigits

theorem mem_driftWindow : c ∈ driftWindow counter ↔ c = counter - 1 ∨ c = counter ∨ c = counter + 1 := by
  simp [driftWindow, driftWindows, sub_eq_add_neg]

theorem driftWindow_sorted (counter : ℤ) : (driftWindow counter).Pairwise (· < ·) := by
  simp [driftWindow, driftWindows]

theorem toOption_eq_some {x : Except Error String} : x.toOption = some code ↔ x = .ok code := by
  cases x <;> simp [Except.toOption]

theorem firstMatch_exact : Exact key code counter (firstMatch key code (driftWindow counter)) := by
  have hsorted := driftWindow_sorted counter
  unfold Exact
  generalize driftWindow counter = cs at hsorted
  cases hm : firstMatch key code cs with
  | none =>
    intro c hc heq
    have hno := List.find?_eq_none.1 hm c hc
    rw [decide_eq_true_eq, toOption_eq_some] at hno
    exact hno heq
  | some m =>
    obtain ⟨hval, before, after, rfl, hbefore⟩ := List.find?_eq_some_iff_append.1 hm
    rw [decide_eq_true_eq, toOption_eq_some] at hval
    refine ⟨List.mem_append_right _ List.mem_cons_self, hval, ?_⟩
    intro c hc heq
    rcases List.mem_append.1 hc with hc | hc
    · -- no counter before the match has the code
      have hno := hbefore c hc
      rw [toOption_eq_some.2 heq] at hno
      simp at hno
    · rcases List.mem_cons.1 hc with rfl | hc
      · exact le_rfl
      · exact (List.rel_of_pairwise_cons (List.pairwise_append.1 hsorted).2.1 hc).le

theorem counterAt_eq (h : 0 ≤ at_) : counterAt at_ = ⌊at_⌋ / totpPeriod := by
  rw [counterAt, Int.tdiv_eq_ediv_of_nonneg (Rat.num_nonneg.2 h), Rat.floor_def']

/-- From thirty seconds after the epoch on, no counter of the window is negative. -/
theorem one_le_counterAt (h : 30 ≤ at_) : 1 ≤ counterAt at_ := by
  have hfloor : (30 : ℤ) ≤ ⌊at_⌋ := Int.le_floor.2 (by exact_mod_cast h)
  rw [counterAt_eq (by linarith), totpPeriod]
  omega

/-- No HOTP value equals a code that is not six digits. -/
theorem exact_none (h : ¬Compared code) : Exact key (strip code) counter none := by
  intro c _ heq
  obtain ⟨hdigit, hlen, -⟩ := hotp_digits heq
  exact h ⟨hdigit, hlen⟩

theorem verify_not_compared (h : ¬Compared code) : verifyTotpAndCounter secret code at_ = .ok none := by
  rw [verifyTotpAndCounter]
  split
  · rfl
  · rw [Compared, not_and_or, Bool.not_eq_true] at h
    exact if_pos h

theorem verify_compared (hs : WellFormed secret key) (h : Compared code) :
    verifyTotpAndCounter secret code at_ =
      (driftWindow (counterAt at_)).foldlM (compareWindow key (strip code)) none := by
  have hcode : code ≠ "" := by
    rintro rfl
    exact absurd h.1 (by decide)
  rw [verifyTotpAndCounter, if_neg (not_or.2 ⟨hs.nonempty, hcode⟩)]
  show (if isdigit (strip code) = false ∨ (strip code).length ≠ totpDigits then _ else _) = _
  rw [if_neg (not_or.2 ⟨by rw [h.1]; decide, not_not.2 h.2⟩), hs.decodes, ok_bind]

/-- One comparison that raises is enough, since none is left out. -/
theorem compareAll_error {cs : List ℤ} {m : Option ℤ} (hc : c ∈ cs)
    (h : ∀ m, ∃ e, compareWindow key code m c = .error e) :
    ∃ e, cs.foldlM (compareWindow key code) m = .error e := by
  induction cs generalizing m with
  | nil => cases hc
  | cons c' cs ih =>
    rw [List.foldlM_cons]
    cases hr : compareWindow key code m c' with
    | error e => exact ⟨e, rfl⟩
    | ok m' =>
      rcases List.mem_cons.1 hc with rfl | hc
      · obtain ⟨e, he⟩ := h m
        rw [hr] at he
        cases he
      · exact ih hc

theorem compareWindow_not_ascii {m : Option ℤ} (h : isascii code = false) :
    ∃ e, compareWindow key code m c = .error e := by
  rw [compareWindow]
  cases hotp key c with
  | error e => exact ⟨e, rfl⟩
  | ok candidate =>
    rw [ok_bind, compareDigest, if_neg (by rw [h]; simp)]
    exact ⟨.type_error, rfl⟩

theorem compareWindow_late {m : Option ℤ} (h : 2 ^ 64 ≤ c) : ∃ e, compareWindow key code m c = .error e := by
  rw [compareWindow, hotp_error (by omega)]
  exact ⟨.struct_error, rfl⟩

theorem compareAll_not_ascii (key : List UInt8) (counter : ℤ) (h : isascii code = false) :
    ∃ e, (driftWindow counter).foldlM (compareWindow key code) none = .error e :=
  compareAll_error (mem_driftWindow.2 (.inr (.inl rfl))) fun _ => compareWindow_not_ascii h

theorem compareAll_late (key : List UInt8) (code : String) (h : 2 ^ 64 ≤ counter + 1) :
    ∃ e, (driftWindow counter).foldlM (compareWindow key code) none = .error e :=
  compareAll_error (mem_driftWindow.2 (.inr (.inr rfl))) fun _ => compareWindow_late h

/-- For a secret that decodes and a time past the first period, the answer is the
one wanted if and only if the code is not compared, or it is ASCII and the last
counter of the window fits eight bytes. -/
theorem verify_exact_iff (code : String) (hs : WellFormed secret key) (hat : 30 ≤ at_) :
    (∃ r, verifyTotpAndCounter secret code at_ = .ok r ∧ Exact key (strip code) (counterAt at_) r) ↔
      ¬Compared code ∨ (isascii (strip code) = true ∧ counterAt at_ + 1 < 2 ^ 64) := by
  by_cases hc : Compared code
  · rw [verify_compared hs hc, or_iff_right (not_not.2 hc)]
    constructor
    · rintro ⟨r, hr, -⟩
      refine ⟨?_, ?_⟩
      · by_contra hascii
        obtain ⟨e, he⟩ := compareAll_not_ascii key (counterAt at_) (eq_false_of_ne_true hascii)
        rw [he] at hr
        cases hr
      · by_contra hlate
        obtain ⟨e, he⟩ := compareAll_late key (strip code) (not_lt.1 hlate)
        rw [he] at hr
        cases hr
    · rintro ⟨hascii, hlast⟩
      have hfirst := one_le_counterAt hat
      have hrange : ∀ c ∈ driftWindow (counterAt at_), 0 ≤ c ∧ c < 2 ^ 64 := by
        intro c hc
        rw [mem_driftWindow] at hc
        omega
      exact ⟨_, compareAll_eq hascii hrange, by rw [Option.none_or]; exact firstMatch_exact⟩
  · exact ⟨fun _ => .inl hc, fun _ => ⟨none, verify_not_compared hc, exact_none hc⟩⟩

/-! ## The model of the requests -/

/-- The code of a secret and a counter; no code is empty. -/
def hotpOf (secret : String) (counter : ℤ) : String :=
  ((b32decodePadded secret).toOption.bind fun key => (hotp key counter).toOption).getD ""

theorem isDigit_of_isDigitChar {d : Char} (h : isDigitChar d = true) (hascii : d.toNat < 128) : d.isDigit = true := by
  obtain ⟨r, hr, hd⟩ := List.any_eq_true.1 h
  have hfirst : ∀ r ∈ digitRanges, r = (0x30, 0x39) ∨ 128 ≤ r.1 := by decide
  rw [Bool.and_eq_true, decide_eq_true_eq, decide_eq_true_eq] at hd
  rcases hfirst r hr with rfl | hbeyond
  · simpa [Char.isDigit, Char.le_def, UInt32.le_iff_toNat_le] using hd
  · omega

theorem ascii_digits_iff :
    (code.toList.all Char.isDigit = true ∧ code.length = totpDigits) ↔
      (isdigit code = true ∧ code.length = totpDigits) ∧ isascii code = true := by
  rw [isdigit, isascii, List.all_eq_true, Bool.and_eq_true, decide_eq_true_eq, List.all_eq_true, List.all_eq_true]
  constructor
  · rintro ⟨hdigits, hlen⟩
    refine ⟨⟨⟨?_, fun d hd => (isDigitChar_of_isDigit (hdigits d hd)).1⟩, hlen⟩,
      fun d hd => decide_eq_true (isDigitChar_of_isDigit (hdigits d hd)).2⟩
    rintro rfl
    cases hlen
  · rintro ⟨⟨⟨-, hdigits⟩, hlen⟩, hascii⟩
    exact ⟨fun d hd => isDigit_of_isDigitChar (hdigits d hd) (of_decide_eq_true (hascii d hd)), hlen⟩

theorem hotpOf_eq_iff (hs : WellFormed secret key) (hcode : code ≠ "") : hotpOf secret c = code ↔ hotp key c = .ok code := by
  rw [hotpOf, hs.decodes]
  show (hotp key c).toOption.getD "" = code ↔ _
  cases hotp key c with
  | error e => simpa [Except.toOption] using hcode.symm
  | ok candidate => simp [Except.toOption]

theorem counterAt_time {now : Time} (h : 0 ≤ now) : counterAt ((now : ℚ) / 1000000) = now / 1000000 / totpPeriod := by
  rw [counterAt_eq (by positivity)]
  exact congrArg (· / totpPeriod) (Rat.floor_intCast_div_natCast now 1000000)

theorem findSome_window (hs : WellFormed secret key) (hcode : code ≠ "") (counter : ℤ) (deltas : List ℤ) :
    (deltas.findSome? fun delta => if hotpOf secret (counter + delta) = code then some (counter + delta) else none) =
      firstMatch key code (deltas.map (counter + ·)) := by
  induction deltas with
  | nil => rfl
  | cons delta deltas ih =>
    rw [List.findSome?_cons, List.map_cons, firstMatch_cons, firstMatch, List.find?_singleton, ih]
    by_cases h : hotp key (counter + delta) = .ok code
    · rw [if_pos ((hotpOf_eq_iff hs hcode).2 h), h]
      simp [Except.toOption]
    · rw [if_neg fun heq => h ((hotpOf_eq_iff hs hcode).1 heq), if_neg (by rwa [decide_eq_true_eq, toOption_eq_some]),
        Option.none_or]

/-- The model with HOTP as a parameter answers the same, and refuses where the code raises. -/
theorem verify_eq {now : Time} (code : String) (hs : WellFormed secret key) (hat : 30 ≤ (now : ℚ) / 1000000)
    (hlast : counterAt ((now : ℚ) / 1000000) + 1 < 2 ^ 64) :
    Garant.verifyTotpAndCounter hotpOf secret code now =
      (verifyTotpAndCounter secret code ((now : ℚ) / 1000000)).toOption.join := by
  have hnow : (0 : ℚ) ≤ now := by linarith
  have hcounter := counterAt_time (Int.cast_nonneg_iff.1 hnow)
  rw [Garant.verifyTotpAndCounter]
  by_cases hdigits : (strip code).toList.all Char.isDigit = true ∧ (strip code).length = totpDigits
  · obtain ⟨hc, hascii⟩ := ascii_digits_iff.1 hdigits
    have hnonempty : strip code ≠ "" := by
      intro h
      rw [h] at hc
      exact absurd hc.1 (by decide)
    have hcode : code ≠ "" := by
      rintro rfl
      exact hnonempty (by decide)
    rw [if_neg (not_or.2 ⟨hs.nonempty, hcode⟩)]
    show (if _ then _ else _) = _
    have hfirst := one_le_counterAt hat
    have hrange : ∀ c ∈ driftWindow (counterAt ((now : ℚ) / 1000000)), 0 ≤ c ∧ c < 2 ^ 64 := by
      intro c hmem
      rw [mem_driftWindow] at hmem
      omega
    rw [if_neg (by rw [not_or, not_not, not_not]; exact hdigits), verify_compared hs hc, compareAll_eq hascii hrange,
      Option.none_or, hcounter]
    exact findSome_window hs hnonempty _ _
  · have hnone : (if secret = "" ∨ code = "" then none
        else if ¬(strip code).toList.all Char.isDigit ∨ (strip code).length ≠ totpDigits then none
        else [-driftWindows, 0, driftWindows].findSome? fun delta =>
          if hotpOf secret (now / 1000000 / totpPeriod + delta) = strip code then
            some (now / 1000000 / totpPeriod + delta) else none) = (none : Option ℤ) := by
      split
      · rfl
      · exact if_pos (not_and_or.1 hdigits)
    refine hnone.trans ?_
    by_cases hc : Compared code
    · have hascii : isascii (strip code) = false := by
        by_contra h
        exact hdigits (ascii_digits_iff.2 ⟨hc, eq_true_of_ne_false h⟩)
      obtain ⟨e, he⟩ := compareAll_not_ascii key (counterAt ((now : ℚ) / 1000000)) hascii
      rw [verify_compared hs hc, he]
      rfl
    · rw [verify_not_compared hc]
      rfl

end

/-! ## Examples -/

def sampleSecret : String := "GEZDGNBVGY3TQOJQGEZDGNBVGY3TQOJQ"

/-- The bytes of "12345678901234567890". -/
def sampleKey : List UInt8 := bigEndian 20 0x3132333435363738393031323334353637383930

theorem sampleSecret_wellFormed : WellFormed sampleSecret sampleKey where
  nonempty := by decide
  decodes := by decide +kernel

/-- The code of the current period, with white space around it. -/
theorem sampleCode_verified : ∃ r, verifyTotpAndCounter sampleSecret " 287082 " 59 = .ok r ∧
    Exact sampleKey "287082" 1 r ∧ hotp sampleKey 1 = .ok "287082" := by
  have hstrip : strip " 287082 " = "287082" := by decide +kernel
  have hcounter : counterAt 59 = 1 := by decide +kernel
  have hat : (30 : ℚ) ≤ 59 := by norm_num
  obtain ⟨r, hr, hexact⟩ := (verify_exact_iff " 287082 " sampleSecret_wellFormed hat).2
    (.inr ⟨by rw [hstrip]; decide, by rw [hcounter]; norm_num⟩)
  rw [hstrip, hcounter] at hexact
  exact ⟨r, hr, hexact, by decide +kernel⟩

/-- Six superscript twos are digits to `isdigit` and no string to `compare_digest`. -/
theorem superscript_code_raises : WellFormed sampleSecret sampleKey ∧ (30 : ℚ) ≤ 59 ∧
    verifyTotpAndCounter sampleSecret "²²²²²²" 59 = .error .type_error ∧
      ¬∃ r, verifyTotpAndCounter sampleSecret "²²²²²²" 59 = .ok r ∧ Exact sampleKey (strip "²²²²²²") (counterAt 59) r := by
  have herr : verifyTotpAndCounter sampleSecret "²²²²²²" 59 = .error .type_error := by decide +kernel
  refine ⟨sampleSecret_wellFormed, by norm_num, herr, ?_⟩
  rintro ⟨r, hr, -⟩
  rw [herr] at hr
  cases hr

end TotpCodes

end Garant
