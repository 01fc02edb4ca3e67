import Garant.Lib.Text
/-!
# Writing what can be read back

The inverses of what `Text` reads: `decodeUtf8_encodeUtf8` for bytes,
`unquote_quote` for escapes in a URL, `readInt_decimal` for integers. Each goes
through one character, byte or digit at a time.
-/

namespace Text

/-! ## UTF-8 -/

section
variable {a n low high : ℕ} {s rest : List ℕ} {c : Char}

theorem foldl_zipIdx {α β : Type} (f : β → α → β) (x : β) (xs : List α) (k : ℕ) :
    (xs.zipIdx k).foldl (fun x b => f x b.1) x = xs.foldl f x := by
  induction xs generalizing x k with
  | nil => rfl
  | cons b xs ih =>
    rw [List.zipIdx_cons, List.foldl_cons, List.foldl_cons]
    exact ih _ _

/-- A lead byte with as many bytes behind it as it asks for. -/
theorem decodeChar_following (ha : 0x80 ≤ a) (h : following a = some (s.length, low, high))
    (hs : ∀ x ∈ s.zipIdx, (if x.2 = 0 then low ≤ x.1 && x.1 ≤ high else 0x80 ≤ x.1 && x.1 ≤ 0xBF) = true) :
    decodeChar a (s ++ rest) =
      (Char.ofNat (s.foldl (fun x b => x * 64 + b % 64) (a % 2 ^ (6 - s.length))), s.length + 1) := by
  have htake : (s ++ rest).take s.length = s := List.take_left
  have hgood : (s.zipIdx.takeWhile fun x => if x.2 = 0 then low ≤ x.1 && x.1 ≤ high else 0x80 ≤ x.1 && x.1 ≤ 0xBF) =
      s.zipIdx := List.takeWhile_eq_self_iff.2 hs
  rw [decodeChar, if_neg (not_lt.2 ha), h]
  simp only [htake, hgood, List.length_zipIdx, if_true]
  rw [foldl_zipIdx fun x b => x * 64 + b % 64]

/-- The bytes of a character, as numbers. -/
def charBytes (v : ℕ) : List ℕ :=
  if v ≤ 0x7f then [v]
  else if v ≤ 0x7ff then [v / 64 + 0xc0, v % 64 + 0x80]
  else if v ≤ 0xffff then [v / 4096 + 0xe0, v / 64 % 64 + 0x80, v % 64 + 0x80]
  else [v / 262144 + 0xf0, v / 4096 % 64 + 0x80, v / 64 % 64 + 0x80, v % 64 + 0x80]

theorem utf8EncodeChar_toNat (c : Char) : (String.utf8EncodeChar c).map UInt8.toNat = charBytes c.toNat := by
  have hv : c.val.toNat < 0x110000 := by
    rcases c.valid with h | h
    · exact lt_trans h (by decide)
    · exact h.2
  rw [show c.toNat = c.val.toNat from rfl]
  unfold String.utf8EncodeChar charBytes
  generalize c.val.toNat = v at hv
  simp only [apply_ite (List.map UInt8.toNat), List.map_cons, List.map_nil, UInt8.toNat_ofNat']
  split_ifs <;> simp only [List.cons.injEq, and_true] <;> omega

theorem following_two (h : 0xC2 ≤ a ∧ a ≤ 0xDF) : following a = some (1, 0x80, 0xBF) := if_pos h

theorem following_three (h : 0xE0 ≤ a ∧ a ≤ 0xEF) :
    following a = some (2, if a = 0xE0 then 0xA0 else 0x80, if a = 0xED then 0x9F else 0xBF) := by
  obtain ⟨h₁, h₂⟩ := h
  interval_cases a <;> rfl

theorem following_four (h : 0xF0 ≤ a ∧ a ≤ 0xF4) :
    following a = some (3, if a = 0xF0 then 0x90 else 0x80, if a = 0xF4 then 0x8F else 0xBF) := by
  obtain ⟨h₁, h₂⟩ := h
  interval_cases a <;> rfl

/-- The bytes of a character are read as that character, whatever follows. -/
theorem decodeChar_charBytes (c : Char) : ∃ a s, charBytes c.toNat = a :: s ∧
    ∀ rest, decodeChar a (s ++ rest) = (c, s.length + 1) := by
  have hv : c.toNat < 0xD800 ∨ 0xDFFF < c.toNat ∧ c.toNat < 0x110000 := c.valid
  have hc : Char.ofNat c.toNat = c := Char.ofNat_toNat c
  unfold charBytes
  generalize c.toNat = v at hv hc
  split_ifs with h₁ h₂ h₃
  · refine ⟨v, [], rfl, fun rest => ?_⟩
    rw [decodeChar, if_pos (by omega), hc]
    rfl
  · refine ⟨_, [_], rfl, fun rest => ?_⟩
    rw [decodeChar_following (by omega) (following_two (by omega)) (by simp; omega), ← hc]
    congr 2
    simp only [List.foldl_cons, List.foldl_nil, List.length_singleton]
    omega
  · refine ⟨_, [_, _], rfl, fun rest => ?_⟩
    rw [decodeChar_following (by omega) (following_three (by omega)) ?_, ← hc]
    · congr 2
      simp only [List.foldl_cons, List.foldl_nil, List.length_cons, List.length_nil]
      omega
    · simp
      split_ifs <;> omega
  · refine ⟨_, [_, _, _], rfl, fun rest => ?_⟩
    rw [decodeChar_following (by omega) (following_four (by omega)) ?_, ← hc]
    · congr 2
      simp only [List.foldl_cons, List.foldl_nil, List.length_cons, List.length_nil]
      omega
    · simp
      split_ifs <;> omega

theorem decodeChars_encode {n : ℕ} {s : List Char} (h : (encodeUtf8 s).length ≤ n) :
    decodeChars n ((encodeUtf8 s).map UInt8.toNat) = s := by
  induction s generalizing n with
  | nil => cases n <;> rfl
  | cons c s ih =>
    obtain ⟨a, t, hat, hdecode⟩ := decodeChar_charBytes c
    have hbytes : (encodeUtf8 (c :: s)).map UInt8.toNat = a :: t ++ (encodeUtf8 s).map UInt8.toNat := by
      rw [encodeUtf8, List.flatMap_cons, List.map_append, utf8EncodeChar_toNat, hat]
      rfl
    have hlen : (encodeUtf8 (c :: s)).length = t.length + 1 + (encodeUtf8 s).length := by
      rw [← List.length_map UInt8.toNat, hbytes, List.length_append, List.length_map]
      rfl
    cases n with
    | zero => omega
    | succ n =>
      rw [hbytes, List.cons_append, decodeChars, hdecode]
      simp only [Nat.add_sub_cancel, List.drop_left]
      rw [ih (by omega)]

/-- Encoded text is read as it was. -/
theorem decodeUtf8_encodeUtf8 (s : List Char) : decodeUtf8 (encodeUtf8 s) = s := decodeChars_encode le_rfl

end

/-! ## Escapes in a URL -/

def hexDigit (n : ℕ) : Char := if n < 10 then Char.ofNat (48 + n) else Char.ofNat (55 + n)

/-- The characters that `urllib.parse.quote` never escapes. -/
def isUnreserved (c : Char) : Bool :=
  ('a' ≤ c && c ≤ 'z') || ('A' ≤ c && c ≤ 'Z') || ('0' ≤ c && c ≤ '9') || c = '_' || c = '.' || c = '-' || c = '~'

def quoteByte (safe : List Char) (b : UInt8) : List Char :=
  if b < 128 ∧ (isUnreserved (Char.ofNat b.toNat) ∨ Char.ofNat b.toNat ∈ safe) then [Char.ofNat b.toNat]
  else ['%', hexDigit (b.toNat / 16), hexDigit (b.toNat % 16)]

/-- `urllib.parse.quote`. -/
def quote (safe : List Char) (s : List Char) : List Char := (encodeUtf8 s).flatMap (quoteByte safe)

section
variable {safe s t : List Char} {b : UInt8} {bs : List UInt8} {n : ℕ}

theorem hexValue_hexDigit (h : n < 16) : hexValue (hexDigit n) = some n ∧ isAscii (hexDigit n) = true := by
  interval_cases n <;> decide

theorem unreserved_ne (c : Char) (h : isUnreserved c) : c ≠ '%' := by
  rintro rfl
  exact absurd h (by decide)

theorem ofNat_byte (h : b < 128) : UInt8.ofNat (Char.ofNat b.toNat).toNat = b ∧ isAscii (Char.ofNat b.toNat) = true := by
  have hb : b.toNat < 128 := h
  have hv : (Char.ofNat b.toNat).toNat = b.toNat := by
    have hvalid : b.toNat.isValidChar := .inl (by omega)
    rw [Char.ofNat, dif_pos hvalid]
    rfl
  rw [isAscii, hv]
  exact ⟨UInt8.ofNat_toNat, by simpa using hb⟩

theorem quoteByte_ascii (b : UInt8) : (quoteByte safe b).all isAscii = true := by
  have hb : b.toNat < 256 := b.toNat_lt
  unfold quoteByte
  split
  · next h => simp [(ofNat_byte h.1).2]
  · have hhigh := (hexValue_hexDigit (show b.toNat / 16 < 16 by omega)).2
    have hlow := (hexValue_hexDigit (show b.toNat % 16 < 16 by omega)).2
    simp [hhigh, hlow]
    decide

/-- An escape, or a character that is none, is read as the byte it is for. -/
theorem unquoteBytes_quoteByte (hsafe : '%' ∉ safe) (n : ℕ) (t : List Char) :
    unquoteBytes (n + 1) (quoteByte safe b ++ t) = b :: unquoteBytes n t := by
  have hb : b.toNat < 256 := b.toNat_lt
  unfold quoteByte
  split
  · next h =>
    have hne : Char.ofNat b.toNat ≠ '%' := by
      rcases h.2 with hu | hs
      · exact unreserved_ne _ hu
      · exact fun he => hsafe (he ▸ hs)
    rw [List.singleton_append, unquoteBytes, if_neg hne]
    simp only [(ofNat_byte h.1).1]
  · have hhigh := (hexValue_hexDigit (show b.toNat / 16 < 16 by omega)).1
    have hlow := (hexValue_hexDigit (show b.toNat % 16 < 16 by omega)).1
    have hvalue : b.toNat / 16 * 16 + b.toNat % 16 = b.toNat := by omega
    rw [List.cons_append, unquoteBytes, if_pos rfl]
    simp [hhigh, hlow, hvalue]

theorem unquoteBytes_quote (hsafe : '%' ∉ safe) (h : bs.length ≤ n) : unquoteBytes n (bs.flatMap (quoteByte safe)) = bs := by
  induction bs generalizing n with
  | nil => cases n <;> rfl
  | cons b bs ih =>
    obtain ⟨m, rfl⟩ : ∃ m, n = m + 1 := ⟨n - 1, by rw [List.length_cons] at h; omega⟩
    rw [List.flatMap_cons, unquoteBytes_quoteByte hsafe, ih (by simpa using h)]

theorem quote_ascii : (quote safe s).all isAscii = true := by
  rw [quote, List.all_flatMap]
  exact List.all_eq_true.2 fun b _ => quoteByte_ascii b

theorem runs_ascii (h : s.all isAscii = true) (hne : s ≠ []) : runs s = [s] := by
  refine List.splitBy_of_isChain hne (List.Pairwise.isChain (List.pairwise_of_forall_mem_list fun a ha b hb => ?_))
  rw [List.all_eq_true] at h
  rw [h a ha, h b hb]
  rfl

theorem length_quoted (bs : List UInt8) : bs.length ≤ (bs.flatMap (quoteByte safe)).length := by
  induction bs with
  | nil => exact le_rfl
  | cons b bs ih =>
    have hpos : 0 < (quoteByte safe b).length := by
      unfold quoteByte
      split <;> simp
    rw [List.flatMap_cons, List.length_append, List.length_cons]
    omega

/-- What `quote` writes, `unquote` reads. -/
theorem unquote_quote (hsafe : '%' ∉ safe) (s : List Char) : unquote (quote safe s) = s := by
  by_cases hne : quote safe s = []
  · have hlen : (encodeUtf8 s).length ≤ (quote safe s).length := length_quoted _
    rw [hne, List.length_nil, Nat.le_zero, List.length_eq_zero_iff] at hlen
    rw [hne, ← decodeUtf8_encodeUtf8 s, hlen]
    rfl
  · rw [unquote, runs_ascii quote_ascii hne, List.flatMap_singleton, if_pos quote_ascii,
      quote, unquoteBytes_quote hsafe (length_quoted _), decodeUtf8_encodeUtf8]

theorem encodeUtf8_ascii (h : s.all isAscii = true) : encodeUtf8 s = s.map fun c => UInt8.ofNat c.toNat := by
  induction s with
  | nil => rfl
  | cons c s ih =>
    rw [List.all_cons, Bool.and_eq_true] at h
    have hc : c.val.toNat ≤ 0x7f := by
      have := of_decide_eq_true h.1
      exact Nat.le_of_lt_succ this
    have hchar : String.utf8EncodeChar c = [UInt8.ofNat c.toNat] := if_pos hc
    rw [encodeUtf8, List.flatMap_cons, hchar, ← encodeUtf8, ih h.2]
    rfl

/-- Text of characters that need no escape is written as it is. -/
theorem quote_plain (h : ∀ c ∈ s, isAscii c = true ∧ (isUnreserved c ∨ c ∈ safe)) : quote safe s = s := by
  rw [quote, encodeUtf8_ascii (List.all_eq_true.2 fun c hc => (h c hc).1)]
  induction s with
  | nil => rfl
  | cons c s ih =>
    obtain ⟨hc, hs⟩ := h c List.mem_cons_self
    have hlt : c.toNat < 128 := of_decide_eq_true hc
    have hback : Char.ofNat (UInt8.ofNat c.toNat).toNat = c := by
      rw [UInt8.toNat_ofNat', Nat.mod_eq_of_lt (by omega), Char.ofNat_toNat]
    have hbyte : UInt8.ofNat c.toNat < 128 := by
      rw [UInt8.lt_iff_toNat_lt, UInt8.toNat_ofNat', Nat.mod_eq_of_lt (by omega)]
      exact hlt
    rw [List.map_cons, List.flatMap_cons, ih fun d hd => h d (List.mem_cons_of_mem _ hd), quoteByte, hback,
      if_pos ⟨hbyte, hs⟩, List.singleton_append]

/-- A text of which nothing is escaped in a query. -/
def Unescaped (s : List Char) : Prop := ∀ c ∈ s, isAscii c = true ∧ isUnreserved c = true

instance : Decidable (Unescaped s) := decidable_of_iff (s.all fun c => isAscii c && isUnreserved c) (by simp [Unescaped])

theorem Unescaped.not_mem {c : Char} (h : Unescaped s) (hc : isUnreserved c = false) : c ∉ s :=
  fun hs => Bool.false_ne_true (hc.symm.trans (h c hs).2)

theorem Unescaped.unquotePlus (h : Unescaped s) : unquotePlus s = s := by
  have hmap : (s.map fun c => if c = '+' then ' ' else c) = s := by
    refine (List.map_congr_left fun c hc => if_neg ?_).trans (List.map_id s)
    rintro rfl
    exact h.not_mem (by decide) hc
  have hquote : quote [] s = s := quote_plain fun c hc => ⟨(h c hc).1, .inl (h c hc).2⟩
  rw [Text.unquotePlus, hmap]
  nth_rewrite 1 [← hquote]
  exact unquote_quote (by simp) s

/-- `name=value`, joined by `&`. -/
def queryText (params : List (List Char × List Char)) : List Char :=
  ['&'].intercalate (params.map fun e => e.1 ++ '=' :: e.2)

/-- A query of plain names and values is read as these. -/
theorem parseQsl_queryText {params : List (List Char × List Char)} (hne : params ≠ [])
    (h : ∀ e ∈ params, Unescaped e.1 ∧ Unescaped e.2) : parseQsl (queryText params) = params := by
  have hsep : ∀ l ∈ params.map fun e => e.1 ++ '=' :: e.2, '&' ∉ l := by
    intro l hl
    obtain ⟨e, he, rfl⟩ := List.mem_map.1 hl
    simp [(h e he).1.not_mem (by decide : isUnreserved '&' = false),
      (h e he).2.not_mem (by decide : isUnreserved '&' = false)]
  have hfull : (params.map fun e => e.1 ++ '=' :: e.2).filter (· ≠ []) = params.map fun e => e.1 ++ '=' :: e.2 := by
    refine List.filter_eq_self.2 fun l hl => ?_
    obtain ⟨e, -, rfl⟩ := List.mem_map.1 hl
    simp
  rw [parseQsl, queryText, List.splitOn_intercalate _ hsep (by simpa using hne), hfull, List.map_map]
  refine (List.map_congr_left fun e he => ?_).trans (List.map_id params)
  obtain ⟨hname, hvalue⟩ := h e he
  have hall : ∀ c ∈ e.1, decide (c ≠ '=') = true := by
    intro c hc
    exact decide_eq_true fun heq => hname.not_mem (by decide : isUnreserved '=' = false) (heq ▸ hc)
  obtain ⟨htake, hdrop⟩ := run_append (f := fun c => decide (c ≠ '=')) (c := '=') (by decide) e.1 e.2
  rw [Function.comp_apply, htake, hdrop, List.takeWhile_eq_self_iff.2 hall, List.dropWhile_eq_nil_iff.2 hall,
    List.nil_append, List.tail_cons, hname.unquotePlus, hvalue.unquotePlus]
  rfl

/-- Nothing in what `quote` writes but what needs no escape, and escapes. -/
theorem mem_quote {c : Char} (h : c ∈ quote safe s) : isUnreserved c ∨ c ∈ safe ∨ c = '%' := by
  obtain ⟨b, -, hb⟩ := List.mem_flatMap.1 h
  have hlt : b.toNat < 256 := b.toNat_lt
  unfold quoteByte at hb
  split at hb
  · next hs =>
    rw [List.mem_singleton.1 hb]
    exact hs.2.imp id .inl
  · have hhex : ∀ n < 16, isUnreserved (hexDigit n) := by decide
    simp only [List.mem_cons, List.not_mem_nil, or_false] at hb
    rcases hb with rfl | rfl | rfl
    · exact .inr (.inr rfl)
    · exact .inl (hhex _ (by omega))
    · exact .inl (hhex _ (by omega))

end

/-! ## Integers -/

def digitChar (d : ℕ) : Char := Char.ofNat (48 + d)

/-- The decimal digits of a number, highest first. -/
def decimalDigits (n : ℕ) : List ℕ := if n = 0 then [0] else (Nat.digits 10 n).reverse

/-- `str` of an integer. -/
def decimal (n : ℤ) : List Char :=
  (if n < 0 then ['-'] else []) ++ (decimalDigits n.natAbs).map digitChar

section
variable {d n : ℕ} {ds : List ℕ} {m k : ℤ}

theorem digitChar_value (h : d < 10) : decimalValue (digitChar d) = some d ∧ isSpace (digitChar d) = false ∧
    digitChar d ≠ '-' ∧ digitChar d ≠ '+' := by
  interval_cases d <;> decide

theorem decimalDigits_lt (h : d ∈ decimalDigits n) : d < 10 := by
  unfold decimalDigits at h
  split at h
  · rw [List.mem_singleton.1 h]
    decide
  · exact Nat.digits_lt_base (by decide) (List.mem_reverse.1 h)

theorem decimalDigits_ne : decimalDigits n ≠ [] := by
  unfold decimalDigits
  split
  · simp
  · next h => simpa [Nat.digits_eq_nil_iff_eq_zero] using h

theorem decimalDigits_value (n : ℕ) : (decimalDigits n).foldl (fun n d => n * 10 + d) 0 = n := by
  unfold decimalDigits
  split
  · next h => rw [h]; rfl
  · rw [List.foldl_reverse]
    conv_rhs => rw [← Nat.ofDigits_digits 10 n, Nat.ofDigits_eq_foldr]
    congr 1
    funext d n
    exact (add_comm _ _).trans (congrArg (d + ·) (mul_comm _ _))

theorem digitValues_digits (h : ∀ d ∈ ds, d < 10) (hne : ds ≠ []) : digitValues (ds.map digitChar) = some ds := by
  induction ds with
  | nil => exact absurd rfl hne
  | cons d ds ih =>
    have hd := (digitChar_value (h d List.mem_cons_self)).1
    rw [List.map_cons, digitValues.eq_def]
    simp only [hd, Option.bind_eq_bind, Option.bind_some]
    cases ds with
    | nil => rfl
    | cons e ds =>
      have he : e < 10 := h e (by simp)
      have hunderscore : digitChar e ≠ '_' := by
        interval_cases e <;> decide
      have hrest := ih (fun d hd => h d (List.mem_cons_of_mem _ hd)) (by simp)
      rw [List.map_cons] at hrest ⊢
      split
      · next heq => cases heq
      · next heq => exact absurd (List.cons_eq_cons.1 heq).1 hunderscore
      · rw [hrest]
        rfl

theorem readDigits_decimal (negative : Bool) (h : (decimalDigits n).length ≤ 4300) :
    readDigits negative ((decimalDigits n).map digitChar) = some (if negative then -(n : ℤ) else n) := by
  have hspace : ∀ c ∈ (decimalDigits n).map digitChar, (!isSpace c) = true := by
    intro c hc
    obtain ⟨d, hd, rfl⟩ := List.mem_map.1 hc
    rw [(digitChar_value (decimalDigits_lt hd)).2.1]
    rfl
  rw [readDigits, List.dropWhile_eq_nil_iff.2 hspace, List.takeWhile_eq_self_iff.2 hspace,
    digitValues_digits (fun d => decimalDigits_lt) decimalDigits_ne, if_neg (by simp)]
  simp only [Option.bind_eq_bind, Option.bind_some, if_neg (not_lt.2 h), decimalDigits_value]

/-- The first digit is neither white space nor a sign. -/
theorem decimalDigits_cons (n : ℕ) : ∃ d ds, decimalDigits n = d :: ds ∧ d < 10 := by
  obtain ⟨d, ds, h⟩ := List.exists_cons_of_ne_nil (decimalDigits_ne (n := n))
  exact ⟨d, ds, h, decimalDigits_lt (h ▸ List.mem_cons_self)⟩

/-- What `str` writes, `int` reads. -/
theorem readInt_decimal (h : (decimalDigits m.natAbs).length ≤ 4300) : readInt (decimal m) = some m := by
  obtain ⟨d, ds, hds, hd⟩ := decimalDigits_cons m.natAbs
  obtain ⟨-, hspace, hminus, hplus⟩ := digitChar_value hd
  have hread := fun negative => readDigits_decimal negative h
  rw [hds, List.map_cons] at hread
  rw [decimal, readInt, hds, List.map_cons]
  by_cases hm : m < 0
  · rw [if_pos hm, List.singleton_append, List.dropWhile_cons, if_neg (by decide)]
    simp only [sign, hread, if_true]
    exact congrArg some (by omega)
  · rw [if_neg hm, List.nil_append, List.dropWhile_cons, if_neg (by rw [hspace]; decide)]
    have hsign : sign (digitChar d :: ds.map digitChar) = (false, digitChar d :: ds.map digitChar) := by
      simp [sign, hminus, hplus]
    simp only [hsign, hread]
    exact congrArg some (by simp; omega)

theorem decimalDigits_inj {n k : ℕ} (h : (decimalDigits n).map digitChar = (decimalDigits k).map digitChar) : n = k := by
  have hn := digitValues_digits (fun d => decimalDigits_lt (n := n)) decimalDigits_ne
  rw [h, digitValues_digits (fun d => decimalDigits_lt) decimalDigits_ne] at hn
  rw [← decimalDigits_value n, ← decimalDigits_value k, Option.some_inj.1 hn]

theorem decimal_inj (h : decimal m = decimal k) : m = k := by
  obtain ⟨d, ds, hds, hd⟩ := decimalDigits_cons m.natAbs
  obtain ⟨e, es, hes, he⟩ := decimalDigits_cons k.natAbs
  unfold decimal at h
  split at h <;> split at h
  · have := decimalDigits_inj (List.append_cancel_left h)
    omega
  · rw [hes] at h
    exact absurd (List.cons_eq_cons.1 h).1.symm (digitChar_value he).2.2.1
  · rw [hds] at h
    exact absurd (List.cons_eq_cons.1 h).1 (digitChar_value hd).2.2.1
  · have := decimalDigits_inj h
    omega

theorem decimal_ne : decimal m ≠ [] := by
  rw [decimal, Ne, List.append_eq_nil_iff, List.map_eq_nil_iff]
  exact fun h => decimalDigits_ne h.2

theorem decimal_plain (m : ℤ) : Unescaped (decimal m) := by
  have hdigit : ∀ d < 10, isAscii (digitChar d) = true ∧ isUnreserved (digitChar d) = true := by decide
  intro c h
  rcases List.mem_append.1 h with h | h
  · split at h
    · rw [List.mem_singleton.1 h]
      decide
    · cases h
  · obtain ⟨d, hd, rfl⟩ := List.mem_map.1 h
    exact hdigit d (decimalDigits_lt hd)
end

end Text
