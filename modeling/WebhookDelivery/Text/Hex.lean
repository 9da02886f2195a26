import WebhookDelivery.Text.Quoted
import WebhookDelivery.Text.Blank

/-!
# WebhookDelivery.Text.Hex

Bytes as pairs of hexadecimal digits. Writing uses lower-case digits and nothing else; reading takes
both cases and skips ASCII blanks between the pairs.

* `hexDecode?_hexEncode`: what is written is read back.
-/

namespace WebhookDelivery

abbrev Bytes := List UInt8

namespace Text

def hexValue? (c : Char) : Option Nat :=
  if '0' ≤ c ∧ c ≤ '9' then some (c.toNat - 48)
  else if 'a' ≤ c ∧ c ≤ 'f' then some (c.toNat - 87)
  else if 'A' ≤ c ∧ c ≤ 'F' then some (c.toNat - 55)
  else none

def hexEncode (bs : Bytes) : List Char :=
  bs.flatMap fun b => [hexDigit (b.toNat / 16), hexDigit (b.toNat % 16)]

def hexDecode? : List Char → Option Bytes
  | [] => some []
  | c :: rest =>
    if isAsciiBlank c then hexDecode? rest
    else match rest with
      | [] => none
      | d :: rest =>
        match hexValue? c, hexValue? d with
        | some high, some low => (hexDecode? rest).map (UInt8.ofNat (16 * high + low) :: ·)
        | _, _ => none

theorem hexValue?_hexDigit : ∀ n < 16, hexValue? (hexDigit n) = some n := by decide

theorem isAsciiBlank_hexDigit : ∀ n < 16, isAsciiBlank (hexDigit n) = false := by decide

/-- What is written is read back. -/
theorem hexDecode?_hexEncode (bs : Bytes) : hexDecode? (hexEncode bs) = some bs := by
  induction bs with
  | nil => rfl
  | cons b rest ih =>
    have hb := b.toNat_lt
    have hh := hexValue?_hexDigit (b.toNat / 16) (by omega)
    have hl := hexValue?_hexDigit (b.toNat % 16) (by omega)
    have hc := isAsciiBlank_hexDigit (b.toNat / 16) (by omega)
    have he : hexEncode (b :: rest) =
        hexDigit (b.toNat / 16) :: hexDigit (b.toNat % 16) :: hexEncode rest := rfl
    have hn : 16 * (b.toNat / 16) + b.toNat % 16 = b.toNat := Nat.div_add_mod b.toNat 16
    rw [he]
    simp [hexDecode?, hh, hl, hc, ih, hn]

end Text
end WebhookDelivery
