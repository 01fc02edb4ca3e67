import Garant.InitData
import Garant.Invoices
import Garant.Lib.Quote
/-!
# Signed media URLs

`media_signing.py` and `serve_deal_media`: the URL of a deal attachment carries
an expiry and an HMAC over the path and the expiry.

`signed_url_served`: the URL that is handed out is served, and with that file,
until it expires, and refused from then on. `media_signature_binds`: a signature that
was handed out opens no other path and is good for no longer, unless the HMAC collides.
-/
open Text Sha

namespace Garant

/-! ## Signing -/

/-- The settings of `media_signing.py`. -/
structure MediaUrlSettings where
  media_base_url : List Char
  media_signed_kinds : List Char
  media_signed_url_ttl_seconds : ℤ
  media_url_signing_secret : String
  /-- What `pin_secret()` returns. -/
  pin_secret : String

/-- What `serve_deal_media` raises. -/
inductive MediaFailure
  | http (status_code : ℕ) (detail : String)
  /-- Of `compare_digest`. -/
  | type_error
deriving DecidableEq

section
variable (settings : MediaUrlSettings)

/-- `_signing_secret`. -/
def signingSecret : List UInt8 :=
  if settings.media_url_signing_secret ≠ "" then encodeUtf8 settings.media_url_signing_secret.toList
  else encodeUtf8 settings.pin_secret.toList

/-- `_signed_kinds`. -/
def signedKinds : List String :=
  ((settings.media_signed_kinds.splitOn ',').map fun k => strip (String.ofList k)).filter (· ≠ "")

/-- `{path}|{exp}`. -/
def signedText (path : List Char) (exp : ℤ) : List Char := path ++ '|' :: decimal exp

/-- `_sign`. -/
def signMedia (path : List Char) (exp : ℤ) : List Char :=
  hexdigest (hmac sha256 (signingSecret settings) (encodeUtf8 (signedText path exp)))

def _QUERY_SAFE : List Char := ['/', '-', '_', '.']

/-- When a URL that is signed now expires. -/
def mediaExpiry (now : ℤ) (ttl : Option ℤ) : ℤ := now + max 1 (ttl.getD settings.media_signed_url_ttl_seconds)

/-- `sign_media_path`. -/
def signMediaPath (now : ℤ) (path : List Char) (ttl : Option ℤ) : List Char :=
  let exp := mediaExpiry settings now ttl
  quote _QUERY_SAFE path ++ "?exp=".toList ++ decimal exp ++ "&sig=".toList ++ signMedia settings path exp

/-- `signed_media_url`. -/
def signedMediaUrl (now : ℤ) (url : List Char) (kind : String) (ttl : Option ℤ) : List Char :=
  if kind ∈ signedKinds settings then signMediaPath settings now url ttl else url

/-! ## Serving -/

/-- `verify_media_signature`. -/
def verifyMediaSignature (now : ℤ) (path : List Char) (exp sig : Option (List Char)) : Except MediaFailure Bool :=
  match exp.filter (· ≠ []), sig.filter (· ≠ []) with
  | some exp, some sig =>
    match readInt exp with
    | none => .ok false
    | some exp_ts =>
      if exp_ts < now then .ok false
      else if sig.all isAscii = false then .error .type_error
      else .ok (signMedia settings path exp_ts = sig)
  | _, _ => .ok false

/-- `{media_base_url.rstrip('/')}/deal/{filename}`. -/
def dealPath (filename : List Char) : List Char :=
  (settings.media_base_url.reverse.dropWhile (· = '/')).reverse ++ "/deal/".toList ++ filename

/-- `serve_deal_media`, where `files` is the folder of deal media. -/
def serveDealMedia (now : ℤ) (files : List Char → Option (List UInt8)) (filename : List Char) (exp sig : Option (List Char)) :
    Except MediaFailure (List UInt8) :=
  if filename = [] ∨ '\x00' ∈ filename ∨ '/' ∈ filename ∨ '\\' ∈ filename then .error (.http 404 "Файл не найден")
  else do
    let verified ← verifyMediaSignature settings now (dealPath settings filename) exp sig
    if verified then (files filename).elim (.error (.http 404 "Файл не найден")) .ok
    else .error (.http 403 "Ссылка истекла или подписана некорректно")

/-- What the route takes of a path; it ends before a line break. -/
def dealFilename (path : List Char) : Option (List Char) :=
  if dealPath settings [] <+: path then
    let rest := path.drop (dealPath settings []).length
    let line := rest.takeWhile (· ≠ '\n')
    if rest = line ∨ rest = line ++ ['\n'] then some line else none
  else none

/-- The last value of a query parameter. -/
def queryParam (params : List (List Char × List Char)) (name : String) : Option (List Char) :=
  (params.reverse.find? fun e => e.1 = name.toList).map (·.2)

/-- The answer to a URL, if its path belongs to the route. -/
def fetchDealMedia (now : ℤ) (files : List Char → Option (List UInt8)) (url : List Char) :
    Option (Except MediaFailure (List UInt8)) :=
  let params := parseQsl (url.dropWhile (· ≠ '?')).tail
  (dealFilename settings (unquote (url.takeWhile (· ≠ '?')))).map fun filename =>
    serveDealMedia settings now files filename (queryParam params "exp") (queryParam params "sig")
end

/-! ## The URL handed out -/

section
variable {settings : MediaUrlSettings} {path path' filename s t : List Char} {exp exp' : ℤ} {c : Char}

theorem hexChar_plain : ∀ n < 256, (isAscii (hexChar (UInt8.ofNat n / 16)) ∧ isUnreserved (hexChar (UInt8.ofNat n / 16))) ∧
    isAscii (hexChar (UInt8.ofNat n % 16)) ∧ isUnreserved (hexChar (UInt8.ofNat n % 16)) := by
  decide +kernel

theorem signMedia_plain : Unescaped (signMedia settings path exp) := by
  intro c h
  obtain ⟨b, -, hb⟩ := List.mem_flatMap.1 h
  obtain ⟨hhigh, hlow⟩ := hexChar_plain b.toNat b.toNat_lt
  rw [UInt8.ofNat_toNat] at hhigh hlow
  rcases List.mem_cons.1 hb with rfl | hb
  · exact hhigh
  · rw [List.mem_singleton.1 hb]
    exact hlow

theorem signMedia_ne : signMedia settings path exp ≠ [] := by
  have hlen : (hmac sha256 (signingSecret settings) (encodeUtf8 (signedText path exp))).length = 32 :=
    hmac_length sha256_length _ _
  obtain ⟨b, bs, hb⟩ := List.exists_cons_of_ne_nil (List.ne_nil_of_length_pos (hlen ▸ (by decide : 0 < 32)))
  rw [signMedia, hb]
  simp [hexdigest]

/-- Names that the upload gives, and all others without separators and line breaks. -/
def FileName (filename : List Char) : Prop :=
  (filename ≠ [] ∧ '\x00' ∉ filename ∧ '/' ∉ filename ∧ '\\' ∉ filename) ∧ '\n' ∉ filename

theorem dealFilename_dealPath (h : FileName filename) :
    dealFilename settings (dealPath settings filename) = some filename := by
  have hpath : dealPath settings filename = dealPath settings [] ++ filename := by
    rw [dealPath, dealPath, List.append_nil]
  have hline : filename.takeWhile (· ≠ '\n') = filename := by
    refine List.takeWhile_eq_self_iff.2 fun c hc => decide_eq_true ?_
    rintro rfl
    exact h.2 hc
  rw [dealFilename, hpath, if_pos (List.prefix_append _ _)]
  simp only [List.drop_left, hline, true_or, if_true]

theorem filter_present (h : s ≠ []) : (some s).filter (· ≠ []) = some s := Option.filter_some_pos (decide_eq_true h)

/-- The signature of a URL is verified until the URL expires. -/
theorem verify_signed (hexp : (decimalDigits exp.natAbs).length ≤ 4300) (now : ℤ) :
    verifyMediaSignature settings now path (some (decimal exp)) (some (signMedia settings path exp)) =
      .ok (decide (now ≤ exp)) := by
  have hascii : (signMedia settings path exp).all isAscii = true :=
    List.all_eq_true.2 fun c hc => (signMedia_plain c hc).1
  rw [verifyMediaSignature, filter_present decimal_ne, filter_present signMedia_ne]
  simp only [readInt_decimal hexp]
  split
  · next hlt => rw [decide_eq_false (not_le.2 hlt)]
  · next hle =>
    rw [if_neg (by rw [hascii]; decide), decide_eq_true (not_lt.1 hle)]
    exact congrArg _ (decide_eq_true trivial)

theorem fetch_signMediaPath {now : ℤ} {ttl : Option ℤ} (later : ℤ) (files : List Char → Option (List UInt8))
    (hname : FileName filename) :
    fetchDealMedia settings later files (signMediaPath settings now (dealPath settings filename) ttl) =
      some (serveDealMedia settings later files filename (some (decimal (mediaExpiry settings now ttl)))
        (some (signMedia settings (dealPath settings filename) (mediaExpiry settings now ttl)))) := by
  generalize hexp : mediaExpiry settings now ttl = exp
  generalize hsig : signMedia settings (dealPath settings filename) exp = sig
  have hurl : signMediaPath settings now (dealPath settings filename) ttl =
      quote _QUERY_SAFE (dealPath settings filename) ++ '?' ::
        queryText [("exp".toList, decimal exp), ("sig".toList, sig)] := by
    simp [signMediaPath, hexp, hsig, queryText, List.intercalate]
  have hquery : '?' ∉ quote _QUERY_SAFE (dealPath settings filename) := by
    intro h
    have := mem_quote h
    exact absurd this (by decide)
  have hall : ∀ c ∈ quote _QUERY_SAFE (dealPath settings filename), decide (c ≠ '?') = true :=
    fun c hc => decide_eq_true fun heq => hquery (heq ▸ hc)
  obtain ⟨htake, hdrop⟩ := run_append (f := fun c => decide (c ≠ '?')) (c := '?') (by decide)
    (quote _QUERY_SAFE (dealPath settings filename)) (queryText [("exp".toList, decimal exp), ("sig".toList, sig)])
  have hplain : ∀ e ∈ [("exp".toList, decimal exp), ("sig".toList, sig)], Unescaped e.1 ∧ Unescaped e.2 := by
    simp only [List.mem_cons, List.not_mem_nil, or_false]
    rintro e (rfl | rfl)
    · exact ⟨(by decide +kernel : Unescaped "exp".toList), decimal_plain exp⟩
    · exact ⟨(by decide +kernel : Unescaped "sig".toList), hsig ▸ signMedia_plain⟩
  rw [hurl, fetchDealMedia, htake, hdrop, List.takeWhile_eq_self_iff.2 hall, List.dropWhile_eq_nil_iff.2 hall,
    unquote_quote (by decide), dealFilename_dealPath hname, Option.map_some, List.nil_append, List.tail_cons,
    parseQsl_queryText (by simp) hplain]
  rfl

/-- The URL that is handed out for a deal attachment is served until it expires, and refused from then on. -/
theorem signed_url_served {now : ℤ} {ttl : Option ℤ} (later : ℤ) (files : List Char → Option (List UInt8))
    (hkind : "deal" ∈ signedKinds settings) (hname : FileName filename)
    (hexp : (decimalDigits (mediaExpiry settings now ttl).natAbs).length ≤ 4300) :
    fetchDealMedia settings later files (signedMediaUrl settings now (dealPath settings filename) "deal" ttl) =
      some (if later ≤ mediaExpiry settings now ttl then (files filename).elim (.error (.http 404 "Файл не найден")) .ok
        else .error (.http 403 "Ссылка истекла или подписана некорректно")) := by
  have hok : ¬(filename = [] ∨ '\x00' ∈ filename ∨ '/' ∈ filename ∨ '\\' ∈ filename) := by
    simpa only [not_or] using hname.1
  rw [signedMediaUrl, if_pos hkind, fetch_signMediaPath later files hname, serveDealMedia, if_neg hok, verify_signed hexp]
  by_cases hle : later ≤ mediaExpiry settings now ttl
  · rw [decide_eq_true hle, if_pos hle]
    rfl
  · rw [decide_eq_false hle, if_neg hle]
    rfl

/-! ## What a signature opens -/

/-- The HMAC does not collide on two texts. -/
def SignsApart (settings : MediaUrlSettings) (x y : List Char) : Prop :=
  hmac sha256 (signingSecret settings) (encodeUtf8 x) = hmac sha256 (signingSecret settings) (encodeUtf8 y) → x = y

/-- The path and the expiry are determined by the text that is signed. -/
theorem signedText_inj (h : signedText path exp = signedText path' exp') : path = path' ∧ exp = exp' := by
  have hbar : ∀ e : ℤ, '|' ∉ decimal e := fun e => (decimal_plain e).not_mem (by decide)
  rcases List.append_eq_append_iff.1 h with ⟨z, hz, hw⟩ | ⟨z, hz, hw⟩
  · cases z with
    | nil =>
      rw [List.append_nil] at hz
      exact ⟨hz.symm, decimal_inj (List.cons_eq_cons.1 hw).2⟩
    | cons d z =>
      exact absurd (by rw [(List.cons_eq_cons.1 hw).2]; simp) (hbar exp)
  · cases z with
    | nil =>
      rw [List.append_nil] at hz
      exact ⟨hz, (decimal_inj (List.cons_eq_cons.1 hw).2).symm⟩
    | cons d z =>
      exact absurd (by rw [(List.cons_eq_cons.1 hw).2]; simp) (hbar exp')

/-- A signature that was handed out for a path and an expiry is verified for no other, and not after it. -/
theorem media_signature_binds {now : ℤ} {exp_text : List Char}
    (hfree : ∀ e, readInt exp_text = some e → SignsApart settings (signedText path e) (signedText path' exp'))
    (h : verifyMediaSignature settings now path (some exp_text) (some (signMedia settings path' exp')) = .ok true) :
    path = path' ∧ readInt exp_text = some exp' ∧ now ≤ exp' := by
  by_cases hne : exp_text = []
  · subst hne
    cases h
  · rw [verifyMediaSignature, filter_present hne, filter_present signMedia_ne] at h
    cases hread : readInt exp_text with
    | none =>
      simp only [hread] at h
      cases h
    | some exp =>
      simp only [hread] at h
      split at h
      · cases h
      · next hlt =>
        split at h
        · cases h
        · have hsame := hexdigest_inj (of_decide_eq_true (Except.ok.inj h))
          obtain ⟨rfl, rfl⟩ := signedText_inj (hfree exp hread hsame)
          exact ⟨rfl, rfl, not_lt.1 hlt⟩

end

/-! ## An attachment -/

def sampleMediaUrls : MediaUrlSettings := ⟨"/media".toList, "deal".toList, 600, "secret", ""⟩

def sampleAttachment : List Char := "7-схема 1.png".toList

theorem sampleAttachment_served : fetchDealMedia sampleMediaUrls 600 (fun _ => some [137])
    (signedMediaUrl sampleMediaUrls 0 (dealPath sampleMediaUrls sampleAttachment) "deal" none) = some (.ok [137]) :=
  signed_url_served 600 (fun _ => some [137]) (by decide +kernel) (by unfold FileName; decide +kernel) (by decide +kernel)

theorem sampleAttachment_bound : verifyMediaSignature sampleMediaUrls 600 (dealPath sampleMediaUrls sampleAttachment)
      (some (decimal 600)) (some (signMedia sampleMediaUrls (dealPath sampleMediaUrls sampleAttachment) 600)) = .ok true ∧
    readInt (decimal 600) = some 600 := by
  have hread : readInt (decimal 600) = some 600 := readInt_decimal (by decide +kernel)
  have h : verifyMediaSignature sampleMediaUrls 600 (dealPath sampleMediaUrls sampleAttachment) (some (decimal 600))
      (some (signMedia sampleMediaUrls (dealPath sampleMediaUrls sampleAttachment) 600)) = .ok true :=
    verify_signed (by decide +kernel) 600
  refine ⟨h, (media_signature_binds (fun e he _ => ?_) h).2.1⟩
  cases hread.symm.trans he
  rfl

end Garant
