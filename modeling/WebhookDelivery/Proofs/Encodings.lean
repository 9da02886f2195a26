import WebhookDelivery.Api.Request
import WebhookDelivery.Delivery.Header
import WebhookDelivery.Proofs.SignedContent

/-!
# WebhookDelivery.Proofs.Encodings

What is written as bytes is read back: texts in UTF-8, and bytes in base 64.

* `utf8Decode?_utf8`: a text is read back from its bytes.
* `forall_mem_utf8_lt`, `asciiLower_utf8`: a text is in ASCII when its bytes are, and then the bytes
  of its lower case are those of the text in lower case.
* `base64Decode_base64Encode`: bytes are read back from their text.
* `IngestRequest.describes_toEvent`: an ingested event has the bytes that the request carries.
-/

namespace WebhookDelivery
namespace Text

/-! ## UTF-8 -/

/-- A byte that continues a character is taken into its value. -/
theorem continueChar_ofNat {n need : Nat} {low high : UInt8} (hn : n < 256)
    (hlow : low.toNat ≤ n) (hhigh : n ≤ high.toNat) (value : Nat) (bs : Bytes) :
    continueChar (need + 1) low high value (UInt8.ofNat n :: bs) =
      continueChar need 0x80 0xbf (64 * value + n % 64) bs := by
  have hnat : (UInt8.ofNat n).toNat = n := by simp; omega
  rw [continueChar, if_pos, hnat]
  rw [UInt8.le_iff_toNat_le, UInt8.le_iff_toNat_le, hnat]
  exact ⟨hlow, hhigh⟩

/-- Six bits of a character, as they are written after its first byte. -/
theorem continueChar_tail (m need value : Nat) (bs : Bytes) :
    continueChar (need + 1) 0x80 0xbf value (UInt8.ofNat (m % 64 + 128) :: bs) =
      continueChar need 0x80 0xbf (64 * value + m % 64) bs := by
  rw [continueChar_ofNat (by omega) (by simp) (by simp; omega)]
  congr 1
  omega

theorem nextChar_ofNat {n : Nat} (hn : n < 256) (bs : Bytes) : nextChar (UInt8.ofNat n) bs =
    if n < 0x80 then (some n, bs)
    else if n < 0xc2 then (none, bs)
    else if n < 0xe0 then continueChar 1 0x80 0xbf (n % 32) bs
    else if n = 0xe0 then continueChar 2 0xa0 0xbf 0 bs
    else if n = 0xed then continueChar 2 0x80 0x9f 13 bs
    else if n < 0xf0 then continueChar 2 0x80 0xbf (n % 16) bs
    else if n = 0xf0 then continueChar 3 0x90 0xbf 0 bs
    else if n < 0xf4 then continueChar 3 0x80 0xbf (n % 8) bs
    else if n = 0xf4 then continueChar 3 0x80 0x8f 4 bs
    else (none, bs) := by
  have hnat : (UInt8.ofNat n).toNat = n := by simp; omega
  simp only [nextChar, UInt8.lt_iff_toNat_lt, ← UInt8.toNat_inj, hnat]
  rfl

theorem nextChar_two {v : Nat} (h : 0x7f < v) (h' : v ≤ 0x7ff) (tail : Bytes) :
    nextChar (UInt8.ofNat (v / 64 % 32 + 192)) (UInt8.ofNat (v % 64 + 128) :: tail) =
      (some v, tail) := by
  rw [nextChar_ofNat (by omega), if_neg (by omega), if_neg (by omega), if_pos (by omega),
    continueChar_tail, continueChar]
  exact Prod.ext (congrArg some (by omega)) rfl

/-- The bounds of the second byte keep out what is too long and the surrogates. -/
theorem nextChar_three {v : Nat} (h : 0x7ff < v) (h' : v ≤ 0xffff)
    (hvalid : v < 0xd800 ∨ 0xdfff < v) (tail : Bytes) :
    nextChar (UInt8.ofNat (v / 4096 % 16 + 224)) (UInt8.ofNat (v / 64 % 64 + 128) ::
      UInt8.ofNat (v % 64 + 128) :: tail) = (some v, tail) := by
  rw [nextChar_ofNat (by omega), if_neg (by omega), if_neg (by omega), if_neg (by omega)]
  by_cases hleast : v / 4096 = 0
  · rw [if_pos (by omega), continueChar_ofNat (by omega) (by simp; omega) (by simp; omega),
      continueChar_tail, continueChar]
    exact Prod.ext (congrArg some (by omega)) rfl
  · by_cases hsurrogate : v / 4096 = 13
    · rw [if_neg (by omega), if_pos (by omega),
        continueChar_ofNat (by omega) (by simp) (by simp; omega), continueChar_tail, continueChar]
      exact Prod.ext (congrArg some (by omega)) rfl
    · rw [if_neg (by omega), if_neg (by omega), if_pos (by omega), continueChar_tail,
        continueChar_tail, continueChar]
      exact Prod.ext (congrArg some (by omega)) rfl

/-- The bounds of the second byte keep out what is too long and what is too large. -/
theorem nextChar_four {v : Nat} (h : 0xffff < v) (h' : v < 0x110000) (tail : Bytes) :
    nextChar (UInt8.ofNat (v / 262144 % 8 + 240)) (UInt8.ofNat (v / 4096 % 64 + 128) ::
      UInt8.ofNat (v / 64 % 64 + 128) :: UInt8.ofNat (v % 64 + 128) :: tail) =
        (some v, tail) := by
  rw [nextChar_ofNat (by omega), if_neg (by omega), if_neg (by omega), if_neg (by omega),
    if_neg (by omega), if_neg (by omega), if_neg (by omega)]
  by_cases hleast : v / 262144 = 0
  · rw [if_pos (by omega), continueChar_ofNat (by omega) (by simp; omega) (by simp; omega),
      continueChar_tail, continueChar_tail, continueChar]
    exact Prod.ext (congrArg some (by omega)) rfl
  · by_cases hlast : v / 262144 = 4
    · rw [if_neg (by omega), if_neg (by omega), if_pos (by omega),
        continueChar_ofNat (by omega) (by simp) (by simp; omega), continueChar_tail,
        continueChar_tail, continueChar]
      exact Prod.ext (congrArg some (by omega)) rfl
    · rw [if_neg (by omega), if_pos (by omega), continueChar_tail, continueChar_tail,
        continueChar_tail, continueChar]
      exact Prod.ext (congrArg some (by omega)) rfl

/-- The first character of the bytes of a text is its first character. -/
theorem nextChar_utf8 (c : Char) (tail : Bytes) : ∃ b bs, String.utf8EncodeChar c = b :: bs ∧
    nextChar b (bs ++ tail) = (some c.toNat, tail) := by
  have hvalid : c.toNat < 0xd800 ∨ 0xdfff < c.toNat ∧ c.toNat < 0x110000 := c.valid
  have hval : c.val.toNat = c.toNat := rfl
  unfold String.utf8EncodeChar
  simp only [hval]
  generalize c.toNat = v at hvalid
  split
  · refine ⟨_, _, rfl, ?_⟩
    rw [nextChar_ofNat (by omega), if_pos (by omega)]
    rfl
  · split
    · exact ⟨_, _, rfl, nextChar_two (by omega) (by omega) tail⟩
    · split
      · exact ⟨_, _, rfl, nextChar_three (by omega) (by omega) (by omega) tail⟩
      · exact ⟨_, _, rfl, nextChar_four (by omega) (by omega) tail⟩

theorem utf8_cons (c : Char) (s : List Char) :
    utf8 (c :: s) = String.utf8EncodeChar c ++ utf8 s := rfl

theorem utf8PiecesAfter_utf8 (done : List (Option Char)) (s : List Char) :
    utf8PiecesAfter done (utf8 s) = done.reverse ++ s.map some := by
  induction s generalizing done with
  | nil => simp [utf8, utf8PiecesAfter]
  | cons c rest ih =>
    obtain ⟨b, bs, hbytes, hnext⟩ := nextChar_utf8 c (utf8 rest)
    rw [utf8_cons, hbytes, List.cons_append, utf8PiecesAfter, hnext, ih]
    simp

/-- A text is read back from its bytes. -/
theorem utf8Decode?_utf8 (s : List Char) : utf8Decode? (utf8 s) = some s := by
  rw [utf8Decode?, utf8Pieces, utf8PiecesAfter_utf8]
  induction s with
  | nil => rfl
  | cons c rest ih =>
    simp only [List.reverse_nil, List.nil_append] at ih
    simp [List.mapM_cons, ih]

theorem utf8String_injective : Function.Injective utf8String :=
  fun _ _ h => String.toList_inj.1 (utf8_injective h)

/-! ## ASCII -/

theorem utf8EncodeChar_of_isAscii {c : Char} (h : c.toNat < 0x80) :
    String.utf8EncodeChar c = [UInt8.ofNat c.toNat] := by
  have hval : c.val.toNat = c.toNat := rfl
  simp only [String.utf8EncodeChar, hval]
  rw [if_pos (by omega)]

/-- A text is in ASCII when its bytes are. -/
theorem forall_mem_utf8_lt {s : List Char} :
    (∀ b ∈ utf8 s, b < 0x80) ↔ ∀ c ∈ s, c.toNat < 0x80 := by
  have hchar : ∀ c : Char, (∀ b ∈ String.utf8EncodeChar c, b < 0x80) ↔ c.toNat < 0x80 := by
    intro c
    constructor
    · intro h
      by_contra hc
      have hval : c.val.toNat = c.toNat := rfl
      simp only [String.utf8EncodeChar, hval] at h
      rw [if_neg (by omega)] at h
      -- However many bytes there are, the first is too large.
      repeat' split at h
      all_goals
        have hfirst := h _ List.mem_cons_self
        simp [UInt8.lt_iff_toNat_lt] at hfirst
        omega
    · intro hc b hb
      rw [utf8EncodeChar_of_isAscii hc, List.mem_singleton] at hb
      rw [hb, UInt8.lt_iff_toNat_lt]
      simp
      omega
  simp only [utf8, List.mem_flatMap]
  constructor
  · intro h c hc
    exact (hchar c).mp fun b hb => h b ⟨c, hc, hb⟩
  · rintro h b ⟨c, hc, hb⟩
    exact (hchar c).mpr (h c hc) b hb

/-- Lower case of a byte is a byte of ASCII only if the byte is. -/
theorem asciiLower_lt {bs : Bytes} : (∀ b ∈ asciiLower bs, b < 0x80) ↔ ∀ b ∈ bs, b < 0x80 := by
  have hbyte : ∀ b : UInt8,
      (if 0x41 ≤ b ∧ b ≤ 0x5a then b + 0x20 else b) < 0x80 ↔ b < 0x80 := by
    intro b
    have h : ∀ n < 256, (if 0x41 ≤ UInt8.ofNat n ∧ UInt8.ofNat n ≤ 0x5a then UInt8.ofNat n + 0x20
        else UInt8.ofNat n) < 0x80 ↔ UInt8.ofNat n < 0x80 := by decide +kernel
    have := h b.toNat b.toNat_lt
    rwa [UInt8.ofNat_toNat] at this
  simp only [asciiLower, List.forall_mem_map]
  exact forall₂_congr fun b _ => hbyte b

/-- The bytes of a text in ASCII in lower case are those of the text in lower case. -/
theorem asciiLower_utf8 {s : List Char} (h : ∀ c ∈ s, c.toNat < 0x80) :
    asciiLower (utf8 s) = utf8 (lower s) := by
  have hchar : ∀ n < 0x80, asciiLower [UInt8.ofNat n] =
      [UInt8.ofNat (Char.ofNat n).toLower.toNat] := by decide +kernel
  rw [lower_of_isAscii h]
  induction s with
  | nil => rfl
  | cons c rest ih =>
    have hc := h c List.mem_cons_self
    have hlow := toLower_of_isAscii hc
    have happend : ∀ a b : Bytes, asciiLower (a ++ b) = asciiLower a ++ asciiLower b :=
      fun _ _ => List.map_append
    rw [List.map_cons, utf8_cons, utf8_cons, happend,
      ih fun d hd => h d (List.mem_cons_of_mem c hd), utf8EncodeChar_of_isAscii hc,
      utf8EncodeChar_of_isAscii hlow.1, hchar c.toNat hc, Char.ofNat_toNat]

/-- What is in lower case stays so. -/
theorem lowerString_idem {s : String} (h : ∀ c ∈ s.toList, c.toNat < 0x80) :
    lowerString (lowerString s) = lowerString s := by
  have hlower : (lowerString s).toList = s.toList.map Char.toLower := by
    rw [lowerString, String.toList_ofList, lower_of_isAscii h]
  have hascii : ∀ c ∈ (lowerString s).toList, c.toNat < 0x80 := by
    intro c hc
    rw [hlower] at hc
    obtain ⟨d, hd, rfl⟩ := List.mem_map.1 hc
    exact (toLower_of_isAscii (h d hd)).1
  rw [← String.toList_inj, lowerString, String.toList_ofList, lower_of_isAscii hascii, hlower,
    List.map_map]
  exact List.map_congr_left fun c hc => (toLower_of_isAscii (h c hc)).2.1

/-! ## Base 64 -/

theorem base64Digit_spec : ∀ n < 64, base64Value? (base64Digit n) = some n ∧
    base64Digit n ≠ '=' ∧ (base64Digit n).toNat < 0x80 := by decide +kernel

theorem finish_digit {r : Base64Reader} {n : Nat} (hn : n < 64) (hr : r.padded = false)
    (rest : List Char) : r.finish (base64Digit n :: rest) = (r.push n).finish rest := by
  obtain ⟨hvalue, hne, -⟩ := base64Digit_spec n hn
  rw [Base64Reader.finish, if_neg hne, hvalue]
  simp [hr]

/-- From the beginning of a group on, the bytes are read that were written. -/
theorem finish_base64Encode (bs out : Bytes) :
    (⟨0, 0, false, 0, out⟩ : Base64Reader).finish (base64Encode bs) = .ok (out.reverse ++ bs) := by
  have hbyte : ∀ (b : UInt8) (n : Nat), n = b.toNat → UInt8.ofNat n = b := by
    rintro b n rfl
    exact UInt8.ofNat_toNat
  induction bs using base64Encode.induct generalizing out with
  | case1 a b c rest ih =>
    have ha := a.toNat_lt
    have hb := b.toNat_lt
    have hc := c.toNat_lt
    rw [base64Encode, finish_digit (by omega) rfl, finish_digit (by omega) rfl,
      finish_digit (by omega) rfl, finish_digit (by omega) rfl]
    simp only [Base64Reader.push]
    rw [hbyte c _ (by omega), hbyte b _ (by omega), hbyte a _ (by omega), ih]
    simp
  | case2 a b =>
    have ha := a.toNat_lt
    have hb := b.toNat_lt
    rw [base64Encode, finish_digit (by omega) rfl, finish_digit (by omega) rfl,
      finish_digit (by omega) rfl]
    simp only [Base64Reader.push]
    rw [hbyte b _ (by omega), hbyte a _ (by omega)]
    simp [Base64Reader.finish]
  | case3 a =>
    have ha := a.toNat_lt
    rw [base64Encode, finish_digit (by omega) rfl, finish_digit (by omega) rfl]
    simp only [Base64Reader.push]
    rw [hbyte a _ (by omega)]
    simp [Base64Reader.finish]
  | case4 => simp [base64Encode, Base64Reader.finish]

theorem mem_base64Encode {bs : Bytes} {c : Char} (h : c ∈ base64Encode bs) :
    (∃ n < 64, c = base64Digit n) ∨ c = '=' := by
  induction bs using base64Encode.induct with
  | case1 a b d rest ih =>
    have ha := a.toNat_lt
    have hb := b.toNat_lt
    have hd := d.toNat_lt
    simp only [base64Encode, List.mem_cons] at h
    rcases h with rfl | rfl | rfl | rfl | h
    · exact .inl ⟨_, by omega, rfl⟩
    · exact .inl ⟨_, by omega, rfl⟩
    · exact .inl ⟨_, by omega, rfl⟩
    · exact .inl ⟨_, by omega, rfl⟩
    · exact ih h
  | case2 a b =>
    have ha := a.toNat_lt
    have hb := b.toNat_lt
    simp only [base64Encode, List.mem_cons, List.not_mem_nil, or_false] at h
    rcases h with rfl | rfl | rfl | rfl
    · exact .inl ⟨_, by omega, rfl⟩
    · exact .inl ⟨_, by omega, rfl⟩
    · exact .inl ⟨_, by omega, rfl⟩
    · exact .inr rfl
  | case3 a =>
    have ha := a.toNat_lt
    simp only [base64Encode, List.mem_cons, List.not_mem_nil, or_false, or_self] at h
    rcases h with rfl | rfl | rfl
    · exact .inl ⟨_, by omega, rfl⟩
    · exact .inl ⟨_, by omega, rfl⟩
    · exact .inr rfl
  | case4 => simp [base64Encode] at h

theorem isAscii_base64Encode (bs : Bytes) : ∀ c ∈ base64Encode bs, c.toNat < 0x80 := by
  intro c hc
  rcases mem_base64Encode hc with ⟨n, hn, rfl⟩ | rfl
  · exact (base64Digit_spec n hn).2.2
  · decide

/-- No padding stands first. -/
theorem base64Encode_ne (bs : Bytes) (rest : List Char) : base64Encode bs ≠ '=' :: rest := by
  fun_cases base64Encode bs with
  | case4 => simp
  | _ a =>
    have ha := a.toNat_lt
    intro h
    exact (base64Digit_spec _ (by omega)).2.1 (List.cons.inj h).1

/-- Bytes are read back from their text. -/
theorem base64Decode_base64Encode (bs : Bytes) : base64Decode (base64Encode bs) = .ok bs := by
  have hascii : ¬ ((base64Encode bs).any fun c => 0x80 ≤ c.toNat) = true := by
    simp only [List.any_eq_true, decide_eq_true_eq, not_exists, not_and]
    intro c hc
    have := isAscii_base64Encode bs c hc
    omega
  rw [base64Decode, if_neg hascii]
  · exact finish_base64Encode bs []
  · exact fun rest h => base64Encode_ne bs rest h

end Text

/-- An event has the bytes that a request carries as text or in base 64, and its content type,
identifier and type. -/
structure IngestRequest.Describes (r : IngestRequest) (e : Event) : Prop where
  text : r.encoding = .text → r.payload.utf8 = .ok e.payload
  base64 : ∀ bytes, r.encoding = .base64 → r.payload = .ofChars (Text.base64Encode bytes) →
    e.payload = bytes
  contentType : e.contentType = r.contentType
  eventId : e.eventId = r.eventId
  eventType : e.eventType = r.eventType

theorem IngestRequest.describes_toEvent {r : IngestRequest} {now : Int} {e : Event}
    (h : r.toEvent now = .ok e) : r.Describes e := by
  unfold toEvent at h
  cases hp : r.payloadBytes with
  | error fault =>
    rw [hp] at h
    cases h
  | ok payload =>
    rw [hp] at h
    dsimp only at h
    split at h
    · rename_i event hcheck
      cases h
      unfold Event.check at hcheck
      split at hcheck
      · cases hcheck
      · split at hcheck
        · cases hcheck
        · cases hcheck
          unfold payloadBytes at hp
          refine ⟨fun htext => ?_, fun bytes hbase htext => ?_, rfl, rfl, rfl⟩
          · rw [htext] at hp
            dsimp only at hp ⊢
            cases hutf8 : r.payload.utf8 with
            | error fault =>
              rw [hutf8] at hp
              cases hp
            | ok bytes =>
              rw [hutf8] at hp
              cases hp
              rfl
          · rw [hbase, htext, LooseText.map_shown_ofChars, Text.base64Decode_base64Encode] at hp
            cases hp
            rfl
    · cases h

end WebhookDelivery
