import Mathlib.Data.Set.Function
import WebhookDelivery.Proofs.SignatureText

/-!
# WebhookDelivery.Proofs.SignedContent

What an accepted signature says about the delivery it came with.

The covered values and the payload stand in a row with points between them, and both may hold points
of their own. A signature therefore fixes the row but not where one value ends and the next or the
payload begins: that is fixed as soon as every received value has as many points as the signed one.

* `utf8_injective`, `count_utf8`: texts and their points are found again in their bytes.
* `row_injective`: a row with known numbers of points falls apart in one way.
* `verify_sign_iff`: which deliveries a signature is accepted with.
* `accepted_row_is_signed`: an accepted row is the signed one.
* `point_moves_into_value`: a point and the text before it go over from the payload to a value.
-/

namespace WebhookDelivery
namespace Text

/-- The bytes of a character that is no point hold no point. -/
theorem point_notMem_utf8EncodeChar {c : Char} (hc : c ≠ '.') :
    (0x2e : UInt8) ∉ String.utf8EncodeChar c := by
  have hn : c.val.toNat ≠ 0x2e := fun h => hc (Char.ext (UInt32.toNat_inj.1 h))
  have hbyte : ∀ n : Nat, n % 256 ≠ 0x2e → (0x2e : UInt8) ≠ UInt8.ofNat n := by
    intro n hne he
    have := congrArg UInt8.toNat he
    rw [UInt8.toNat_ofNat'] at this
    exact hne this.symm
  unfold String.utf8EncodeChar
  simp only
  split
  · simp only [List.mem_singleton]
    exact hbyte _ (by omega)
  · split
    · simp only [List.mem_cons, List.not_mem_nil, or_false, not_or]
      exact ⟨hbyte _ (by omega), hbyte _ (by omega)⟩
    · split
      · simp only [List.mem_cons, List.not_mem_nil, or_false, not_or]
        exact ⟨hbyte _ (by omega), hbyte _ (by omega), hbyte _ (by omega)⟩
      · simp only [List.mem_cons, List.not_mem_nil, or_false, not_or]
        exact ⟨hbyte _ (by omega), hbyte _ (by omega), hbyte _ (by omega), hbyte _ (by omega)⟩

theorem count_utf8 (s : List Char) : (utf8 s).count 0x2e = s.count '.' := by
  induction s with
  | nil => rfl
  | cons c rest ih =>
    have hcons : utf8 (c :: rest) = String.utf8EncodeChar c ++ utf8 rest := rfl
    rw [hcons, List.count_append, ih, List.count_cons, Nat.add_comm]
    by_cases hc : c = '.'
    · rw [hc]
      rfl
    · rw [List.count_eq_zero_of_not_mem (point_notMem_utf8EncodeChar hc)]
      simp [hc]

theorem utf8_injective : Function.Injective utf8 := by
  intro s s' h
  have harray : s.utf8Encode = s'.utf8Encode := congrArg List.toByteArray h
  rw [← String.toByteArray_ofList, ← String.toByteArray_ofList, String.toByteArray_inj] at harray
  exact String.ofList_injective harray

end Text

namespace Signature

/-- Two texts with a mark in each that has as many marks before it have the same parts. -/
theorem append_cons_inj {α : Type} [BEq α] [LawfulBEq α] {mark : α} {s s' t t' : List α}
    (h : s ++ mark :: t = s' ++ mark :: t') (hcount : s.count mark = s'.count mark) :
    s = s' ∧ t = t' := by
  induction s generalizing s' with
  | nil =>
    cases s' with
    | nil => exact ⟨rfl, List.tail_eq_of_cons_eq h⟩
    | cons c' s' =>
      obtain rfl : mark = c' := List.head_eq_of_cons_eq h
      simp at hcount
  | cons c s ih =>
    cases s' with
    | nil =>
      obtain rfl : c = mark := List.head_eq_of_cons_eq h
      simp at hcount
    | cons c' s' =>
      obtain ⟨rfl, hrest⟩ := List.cons_eq_cons.1 h
      obtain ⟨rfl, rfl⟩ := ih hrest (by simpa [List.count_cons] using hcount)
      exact ⟨rfl, rfl⟩

/-- Values and a payload in a row, with a point after each value. -/
def row (values : List String) (payload : Bytes) : Bytes :=
  values.foldr (fun value rest => Text.utf8String value ++ 0x2e :: rest) payload

def points (value : String) : Nat := value.toList.count '.'

/-- A row with known numbers of points falls apart in one way. -/
theorem row_injective {values values' : List String} {payload payload' : Bytes}
    (h : row values payload = row values' payload')
    (hpoints : values.map points = values'.map points) :
    values = values' ∧ payload = payload' := by
  induction values generalizing values' with
  | nil =>
    obtain rfl : values' = [] := by simpa using hpoints.symm
    exact ⟨rfl, h⟩
  | cons value rest ih =>
    cases values' with
    | nil => simp at hpoints
    | cons value' rest' =>
      -- Both first values end at the same point of the row, as each holds equally many before it.
      obtain ⟨hfirst, hrest⟩ := List.cons_eq_cons.1 hpoints
      have hcount : (Text.utf8String value).count 0x2e = (Text.utf8String value').count 0x2e := by
        rw [Text.utf8String, Text.utf8String, Text.count_utf8, Text.count_utf8]
        exact hfirst
      obtain ⟨hbytes, htail⟩ := append_cons_inj h hcount
      have hvalue : value = value' := String.toList_inj.1 (Text.utf8_injective hbytes)
      obtain ⟨hvalues, hpayload⟩ := ih htail hrest
      exact ⟨by rw [hvalue, hvalues], hpayload⟩

theorem row_eq_join {values : List String} (hne : values ≠ []) (payload : Bytes) :
    Text.utf8 (join ['.'] (values.map String.toList)) ++ Text.utf8 ['.'] ++ payload =
      row values payload := by
  induction values with
  | nil => exact absurd rfl hne
  | cons value rest ih =>
    by_cases hrest : rest = []
    · rw [hrest]
      exact List.append_assoc ..
    · have hmap : rest.map String.toList ≠ [] := by simpa using hrest
      have hutf8 (s t : List Char) : Text.utf8 (s ++ t) = Text.utf8 s ++ Text.utf8 t :=
        List.flatMap_append
      have hrow : row (value :: rest) payload =
          Text.utf8 value.toList ++ (Text.utf8 ['.'] ++ row rest payload) := rfl
      rw [List.map_cons, join_cons ['.'] value.toList hmap, hutf8, hutf8, hrow, ← ih hrest]
      simp only [List.append_assoc]

/-- Under one timestamp and one list of names the covered bytes are decided by the row. -/
theorem canonicalContent_inj {names values values' : List String}
    (hnames : ∀ name ∈ names, name ≠ "") (hlength : values.length = names.length)
    (hlength' : values'.length = names.length) (payload payload' : Bytes) (timestamp : Int) :
    canonicalContent payload timestamp names values =
        canonicalContent payload' timestamp names values' ↔
      row values payload = row values' payload' := by
  by_cases hne : names = []
  · have hvalues : values = [] := by simpa [hne] using hlength
    have hvalues' : values' = [] := by simpa [hne] using hlength'
    simp [canonicalContent, hne, hvalues, hvalues', join, row]
  · have hvalues : values ≠ [] := by
      rintro rfl
      exact hne (by simpa using hlength.symm)
    have hvalues' : values' ≠ [] := by
      rintro rfl
      exact hne (by simpa using hlength'.symm)
    have htext : join [' '] (names.map String.toList) ≠ [] :=
      join_ne_nil (by simpa using hne) (nil_notMem_names hnames)
    rw [← row_eq_join hvalues, ← row_eq_join hvalues', canonicalContent, canonicalContent]
    simp only [List.isEmpty_iff, htext, if_false, List.append_assoc, List.append_cancel_left_eq]

/-- The values that headers give for the names of signed ones, empty where there is none. -/
def receivedValues (headers received : List (String × String)) : List String :=
  (lowerNames headers).map fun h => (Entries.get? (lowerNames received) h.1).getD ""

/-- The content that the signature of a payload and of headers covers. -/
def signedContent (payload : Bytes) (timestamp : Int) (headers : List (String × String)) : Bytes :=
  canonicalContent payload timestamp ((lowerNames headers).map (·.1))
    ((lowerNames headers).map (·.2))

/-- The content under the same timestamp and names with the received payload and values. -/
def receivedContent (payload : Bytes) (timestamp : Int)
    (headers received : List (String × String)) : Bytes :=
  canonicalContent payload timestamp ((lowerNames headers).map (·.1))
    (receivedValues headers received)

/-- Every signed header has been received. -/
def Carries (headers received : List (String × String)) : Prop :=
  ∀ h ∈ lowerNames headers, (Entries.get? (lowerNames received) h.1).isSome = true

instance (headers received : List (String × String)) : Decidable (Carries headers received) :=
  inferInstanceAs (Decidable (∀ _ ∈ _, _))

theorem mapM_eq_of_isSome {α β : Type} {f : α → Option β} {items : List α} (default : β)
    (h : ∀ item ∈ items, (f item).isSome = true) :
    items.mapM f = some (items.map fun item => (f item).getD default) := by
  induction items with
  | nil => rfl
  | cons item rest ih =>
    obtain ⟨value, hvalue⟩ := Option.isSome_iff_exists.1 (h item List.mem_cons_self)
    rw [List.mapM_cons, hvalue, ih fun i hi => h i (List.mem_cons_of_mem item hi)]
    simp [hvalue]

theorem mapM_eq_none {α β : Type} {f : α → Option β} {items : List α}
    (h : ∃ item ∈ items, f item = none) : items.mapM f = none := by
  induction items with
  | nil => simp at h
  | cons item rest ih =>
    rw [List.mapM_cons]
    cases hf : f item with
    | none => rfl
    | some value =>
      obtain ⟨i, hi, hnone⟩ := h
      rcases List.mem_cons.1 hi with rfl | hi
      · simp [hf] at hnone
      · rw [ih ⟨i, hi, hnone⟩]
        rfl

theorem claimed?_make (payload payload' : Bytes) (timestamp : Int) (secret : String)
    (headers received : List (String × String)) :
    (make payload timestamp secret headers).claimed? payload' received =
      if Carries headers received then
        some (receivedContent payload' timestamp headers received,
          computeDigest secret (signedContent payload timestamp headers))
      else none := by
  simp only [claimed?, make]
  split
  · rename_i hcarries
    rw [mapM_eq_of_isSome "" (by simpa [Carries] using hcarries), List.map_map]
    rfl
  · rename_i hcarries
    have hnone : ∃ name ∈ (lowerNames headers).map (·.1),
        Entries.get? (lowerNames received) name = none := by
      simpa [Carries] using hcarries
    rw [mapM_eq_none hnone]
    rfl

theorem isHeaderName_of_mem_lowerNames {headers : List (String × String)}
    (hnames : ∀ h ∈ headers, IsHeaderName h.1) {name : String}
    (h : name ∈ (lowerNames headers).map (·.1)) :
    IsHeaderName name ∧ Text.lowerString name = name := by
  have hmem := Entries.mem_fst_ofList h
  rw [List.map_map] at hmem
  obtain ⟨header, hheader, rfl⟩ := List.mem_map.1 hmem
  exact ⟨(hnames header hheader).lowerString, (hnames header hheader).lowerString_idem⟩

/-- A signature with ordinary names is accepted if its timestamp is not too long, every signed header
has been received, and the received content has the digest of the signed content under one of the
secrets. -/
theorem verify_sign_iff {headers : List (String × String)}
    (hnames : ∀ h ∈ headers, IsHeaderName h.1) {payload payload' : Bytes} {timestamp : Int}
    {secret : String} {secrets : List String} {received : List (String × String)} {now : Seconds} :
    verify (sign payload timestamp secret headers) payload' secrets received none now = .ok true ↔
      Integer.digitCount timestamp ≤ Integer.maxDigits ∧ Carries headers received ∧
        ∃ s ∈ secrets, computeDigest s (receivedContent payload' timestamp headers received) =
          computeDigest secret (signedContent payload timestamp headers) := by
  have hnormal : (make payload timestamp secret headers).IsNormal :=
    ⟨.inr rfl, fun name h => isHeaderName_of_mem_lowerNames hnames h⟩
  have htimestamp : (make payload timestamp secret headers).timestamp = timestamp := rfl
  rw [verify, sign, parse_toHeader hnormal, htimestamp]
  by_cases hcount : Integer.digitCount timestamp ≤ Integer.maxDigits
  · simp only [if_pos hcount, matchesAny, claimed?_make, Except.ok.injEq]
    by_cases hcarries : Carries headers received
    · simp [hcount, hcarries]
    · simp [hcarries]
  · simp [hcount]

theorem isSigned_iff {payload payload' : Bytes} {timestamp : Int}
    {headers received : List (String × String)} (hnames : ∀ h ∈ headers, IsHeaderName h.1) :
    receivedContent payload' timestamp headers received =
        signedContent payload timestamp headers ↔
      row (receivedValues headers received) payload' =
        row ((lowerNames headers).map (·.2)) payload := by
  refine canonicalContent_inj (fun name h => ?_) (by simp [receivedValues]) (by simp) ..
  exact (isHeaderName_of_mem_lowerNames hnames h).1.ne_empty

theorem receivedValues_eq_iff {β : Type} {headers received : List (String × String)}
    (hcarries : Carries headers received) (f : String → β) :
    (receivedValues headers received).map f = ((lowerNames headers).map (·.2)).map f ↔
      ∀ h ∈ lowerNames headers, ∀ value, Entries.get? (lowerNames received) h.1 = some value →
        f value = f h.2 := by
  rw [receivedValues, List.map_map, List.map_map, List.map_inj_left]
  refine forall₂_congr fun h hh => ?_
  obtain ⟨value, hvalue⟩ := Option.isSome_iff_exists.1 (hcarries h hh)
  simp [hvalue]

/-- An accepted signature carries over every signed header and fixes the row of the values and the
payload. What was signed came unchanged exactly if every value has as many points as it had. -/
theorem accepted_row_is_signed {payload payload' : Bytes} {timestamp : Int} {secret : String}
    {headers received : List (String × String)} {now : Seconds}
    (hnames : ∀ h ∈ headers, IsHeaderName h.1)
    (hdigest : Set.InjOn (computeDigest secret) {signedContent payload timestamp headers,
      receivedContent payload' timestamp headers received})
    (haccepted : verify (sign payload timestamp secret headers) payload' [secret] received none now =
      .ok true) :
    (∀ h ∈ lowerNames headers, ∃ value, Entries.get? (lowerNames received) h.1 = some value) ∧
      row (receivedValues headers received) payload' =
        row ((lowerNames headers).map (·.2)) payload ∧
      ((payload' = payload ∧
          ∀ h ∈ lowerNames headers, Entries.get? (lowerNames received) h.1 = some h.2) ↔
        ∀ h ∈ lowerNames headers, ∀ value, Entries.get? (lowerNames received) h.1 = some value →
          points value = points h.2) := by
  obtain ⟨-, hcarries, s, hs, hequal⟩ := (verify_sign_iff hnames).1 haccepted
  obtain rfl := List.mem_singleton.1 hs
  have hcontent := hdigest (by simp) (by simp) hequal
  have hrow := (isSigned_iff hnames).1 hcontent
  refine ⟨fun h hh => Option.isSome_iff_exists.1 (hcarries h hh), hrow, ?_⟩
  constructor
  · rintro ⟨-, hvalues⟩ h hh value hvalue
    rw [hvalues h hh] at hvalue
    rw [Option.some.inj hvalue]
  · intro hpoints
    have hcounts := (receivedValues_eq_iff hcarries points).2 hpoints
    obtain ⟨hvalues, hpayload⟩ := row_injective hrow hcounts
    refine ⟨hpayload, fun h hh => ?_⟩
    obtain ⟨value, hvalue⟩ := Option.isSome_iff_exists.1 (hcarries h hh)
    have hsame := (receivedValues_eq_iff hcarries id).1 (by rw [hvalues]) h hh value hvalue
    rw [hvalue]
    exact congrArg some hsame

/-- A delivery with its header named in another case and with a further header. -/
theorem renamed_header_is_signed :
    (∀ h ∈ [("X-Id", "1.5")], IsHeaderName h.1) ∧
      verify (sign [0x7b, 0x7d] 0 "s" [("X-Id", "1.5")]) [0x7b, 0x7d] ["s"]
        [("host", "a.b"), ("x-id", "1.5")] none (.whole 0) = .ok true ∧
      ∀ h ∈ lowerNames [("X-Id", "1.5")],
        Entries.get? (lowerNames [("host", "a.b"), ("x-id", "1.5")]) h.1 = some h.2 := by
  have hnames : ∀ h ∈ [("X-Id", "1.5")], IsHeaderName h.1 := by decide +kernel
  have hcontent : receivedContent [0x7b, 0x7d] 0 [("X-Id", "1.5")]
      [("host", "a.b"), ("x-id", "1.5")] = signedContent [0x7b, 0x7d] 0 [("X-Id", "1.5")] := by
    decide +kernel
  have haccepted : verify (sign [0x7b, 0x7d] 0 "s" [("X-Id", "1.5")]) [0x7b, 0x7d] ["s"]
      [("host", "a.b"), ("x-id", "1.5")] none (.whole 0) = .ok true :=
    (verify_sign_iff hnames).2 ⟨by decide, by decide +kernel, "s", by simp, by rw [hcontent]⟩
  refine ⟨hnames, haccepted, ?_⟩
  have hpinned := accepted_row_is_signed hnames (by rw [hcontent]; simp) haccepted
  exact (hpinned.2.2.2 (by decide +kernel)).2

/-- The first part of the payload and a point stand in the header instead: the signature of the one
delivery is accepted with the other, as both have the same covered bytes. -/
theorem point_moves_into_value :
    (∀ h ∈ [("x", "a")], IsHeaderName h.1) ∧
      receivedContent (Text.utf8String "c") 0 [("x", "a")] [("x", "a.b")] =
        signedContent (Text.utf8String "b.c") 0 [("x", "a")] ∧
      verify (sign (Text.utf8String "b.c") 0 "s" [("x", "a")]) (Text.utf8String "c") ["s"]
        [("x", "a.b")] none (.whole 0) = .ok true ∧
      Text.utf8String "c" ≠ Text.utf8String "b.c" ∧
      Entries.get? (lowerNames [("x", "a.b")]) "x" ≠ some "a" := by
  have hnames : ∀ h ∈ [("x", "a")], IsHeaderName h.1 := by decide +kernel
  have hcontent : receivedContent (Text.utf8String "c") 0 [("x", "a")] [("x", "a.b")] =
      signedContent (Text.utf8String "b.c") 0 [("x", "a")] := by decide +kernel
  exact ⟨hnames, hcontent,
    (verify_sign_iff hnames).2 ⟨by decide, by decide +kernel, "s", by simp, by rw [hcontent]⟩,
    by decide +kernel, by decide +kernel⟩

end Signature
end WebhookDelivery
