import Mathlib.Data.List.Basic
import Mathlib.Data.List.Induction
import WebhookDelivery.Signature

/-!
# WebhookDelivery.Proofs.SignatureText

A signature is read back from the text that is written for it.

* `splitAt_join`: pieces that hold no mark are found again between the marks.
* `read?_write`: an integer is read back unless it has too many digits.
* `fields_join`: the fields of a text are those that were written into it.
* `IsCarried.parse_toHeader`: a signature is read back when its text carries its names.
* `parse_toHeader`: a signature with a digest and ordinary names is read back.
-/

namespace WebhookDelivery
namespace Text

theorem trimBy_of_ends {class_ : Char → Bool} {s : List Char}
    (hfirst : ∀ c ∈ s.head?, class_ c = false) (hlast : ∀ c ∈ s.getLast?, class_ c = false) :
    trimBy class_ s = s := by
  have hdrop : ∀ l : List Char, (∀ c ∈ l.head?, class_ c = false) → l.dropWhile class_ = l := by
    intro l hl
    cases l with
    | nil => rfl
    | cons c rest => rw [List.dropWhile_cons, hl c rfl]; rfl
  rw [trimBy, hdrop s hfirst, hdrop _ (by simpa using hlast), List.reverse_reverse]

theorem trimBy_of_forall {class_ : Char → Bool} {s : List Char}
    (h : ∀ c ∈ s, class_ c = false) : trimBy class_ s = s :=
  trimBy_of_ends (fun c hc => h c (List.mem_of_mem_head? hc))
    (fun c hc => h c (List.mem_of_mem_getLast? hc))

theorem lowerAfter_of_isAscii {s : List Char} (h : ∀ c ∈ s, c.toNat < 0x80)
    (before : List Char) : lowerAfter before s = s.map Char.toLower := by
  induction s generalizing before with
  | nil => rfl
  | cons c rest ih =>
    have hc : c.toNat < 0x80 := h c List.mem_cons_self
    have hsigma : c.toNat ≠ 0x3a3 := by omega
    have hrest := ih (fun d hd => h d (List.mem_cons_of_mem c hd)) (c :: before)
    rw [lowerAfter, if_neg hsigma, lowerChar, if_pos hc, hrest]
    rfl

theorem lower_of_isAscii {s : List Char} (h : ∀ c ∈ s, c.toNat < 0x80) :
    lower s = s.map Char.toLower :=
  lowerAfter_of_isAscii h []

theorem toLower_of_isAscii {c : Char} (hc : c.toNat < 0x80) :
    c.toLower.toNat < 0x80 ∧ c.toLower.toLower = c.toLower ∧ (c.toLower = ',' ↔ c = ',') ∧
      isBlank c.toLower = isBlank c := by
  have h : ∀ n < 0x80, (Char.ofNat n).toLower.toNat < 0x80 ∧
      (Char.ofNat n).toLower.toLower = (Char.ofNat n).toLower ∧
      ((Char.ofNat n).toLower = ',' ↔ Char.ofNat n = ',') ∧
      isBlank (Char.ofNat n).toLower = isBlank (Char.ofNat n) := by decide +kernel
  have := h c.toNat hc
  rwa [Char.ofNat_toNat] at this

theorem hexDigit_plain :
    ∀ n < 16, hexDigit n ≠ ',' ∧ isBlank (hexDigit n) = false := by decide

theorem hexEncode_plain {bs : Bytes} {c : Char} (hc : c ∈ hexEncode bs) :
    c ≠ ',' ∧ isBlank c = false := by
  obtain ⟨b, -, hb⟩ := List.mem_flatMap.1 hc
  have hlt := b.toNat_lt
  rcases List.mem_cons.1 hb with rfl | hb
  · exact hexDigit_plain (b.toNat / 16) (by omega)
  · obtain rfl := List.mem_singleton.1 hb
    exact hexDigit_plain (b.toNat % 16) (by omega)

end Text

namespace Integer

theorem digitValue?_of_isDigit {c : Char} (h : c.isDigit = true) :
    Text.digitValue? c = some (c.toNat - '0'.toNat) := by
  have hd : '0' ≤ c ∧ c ≤ '9' := by simpa [Char.isDigit, Char.le_def] using h
  have hn : c.toNat < 0x80 := by
    have := (Char.le_def.1 hd.2 : c.val ≤ '9'.val)
    have : c.val.toNat ≤ 57 := this
    exact Nat.lt_of_le_of_lt this (by decide)
  rw [Text.digitValue?, if_pos hn, if_pos hd]
  rfl

theorem digitsAfter_of_isDigit {s : List Char} (h : ∀ c ∈ s, c.isDigit = true) (value count : Nat) :
    digitsAfter value count s = some (Nat.ofDigitChars 10 s value, count + s.length) := by
  induction s generalizing value count with
  | nil => rfl
  | cons c rest ih =>
    have hc := digitValue?_of_isDigit (h c List.mem_cons_self)
    have hrest := ih fun d hd => h d (List.mem_cons_of_mem c hd)
    have hu : c ≠ '_' := by
      rintro rfl
      exact absurd (h '_' List.mem_cons_self) (by decide)
    rw [digitsAfter, hc, Nat.ofDigitChars_cons, List.length_cons]
    · simp only [hrest, Nat.add_assoc, Nat.add_comm 1]
    · rintro d rest rfl
      exact absurd rfl hu

theorem readDigits?_toDigits (n : Nat) :
    readDigits? (Nat.toDigits 10 n) =
      if (Nat.toDigits 10 n).length ≤ maxDigits then some n else none := by
  have hdigit : ∀ c ∈ Nat.toDigits 10 n, c.isDigit = true := fun c hc =>
    Nat.isDigit_of_mem_toDigits (by decide) (by decide) hc
  have hvalue : Nat.ofDigitChars 10 (Nat.toDigits 10 n) 0 = n := Nat.ofDigitChars_ten_toDigits
  obtain ⟨c, rest, hcons⟩ := List.exists_cons_of_ne_nil (@Nat.toDigits_ne_nil n 10)
  rw [hcons] at hdigit hvalue ⊢
  have hc := digitValue?_of_isDigit (hdigit c List.mem_cons_self)
  have hrest := digitsAfter_of_isDigit fun d hd => hdigit d (List.mem_cons_of_mem c hd)
  rw [Nat.ofDigitChars_cons, Nat.mul_zero, Nat.zero_add] at hvalue
  simp only [readDigits?, hc, hrest, hvalue, List.length_cons, Nat.add_comm 1]

/-- The number of decimal digits of an integer, which is what limits its reading. -/
def digitCount (i : Int) : Nat := (Nat.toDigits 10 i.natAbs).length

theorem isDigit_ne {c : Char} (h : c.isDigit = true) :
    c ≠ '-' ∧ c ≠ '+' ∧ c ≠ ',' ∧ Text.isBlank c = false := by
  have hd : '0' ≤ c ∧ c ≤ '9' := by simpa [Char.isDigit, Char.le_def] using h
  have hlow : 48 ≤ c.toNat := Char.le_def.1 hd.1
  have hhigh : c.toNat ≤ 57 := Char.le_def.1 hd.2
  refine ⟨by rintro rfl; simp at hlow, by rintro rfl; simp at hlow, by rintro rfl; simp at hlow, ?_⟩
  simp only [Text.isBlank, Bool.or_eq_false_iff, Bool.and_eq_false_iff, decide_eq_false_iff_not,
    beq_eq_false_iff_ne]
  omega

theorem write_plain {i : Int} {c : Char} (hc : c ∈ write i) :
    c ≠ ',' ∧ Text.isBlank c = false := by
  have hdigit : c ∈ Nat.toDigits 10 i.natAbs → c ≠ ',' ∧ Text.isBlank c = false := fun h =>
    (isDigit_ne (Nat.isDigit_of_mem_toDigits (by decide) (by decide) h)).2.2
  unfold write at hc
  split at hc
  · rcases List.mem_cons.1 hc with rfl | hc
    · exact ⟨by decide, by decide⟩
    · exact hdigit hc
  · exact hdigit hc

/-- An integer is read back unless it has too many digits. -/
theorem read?_write (i : Int) :
    read? (write i) = if digitCount i ≤ maxDigits then some i else none := by
  have htrim : Text.trimBy isOuterBlank (write i) = write i :=
    Text.trimBy_of_forall fun c hc => by rw [isOuterBlank, (write_plain hc).2]; rfl
  rw [read?, htrim, write, digitCount]
  split
  · rename_i hneg
    rw [readSigned?, readDigits?_toDigits]
    split
    · have habs : -(i.natAbs : Int) = i := by omega
      exact congrArg some habs
    · rfl
  · rename_i hpos
    have hread : readSigned? (Nat.toDigits 10 i.natAbs) =
        (readDigits? (Nat.toDigits 10 i.natAbs)).map Int.ofNat := by
      obtain ⟨c, rest, hcons⟩ := List.exists_cons_of_ne_nil (@Nat.toDigits_ne_nil i.natAbs 10)
      have hc : c.isDigit = true :=
        Nat.isDigit_of_mem_toDigits (by decide) (by decide) (hcons ▸ List.mem_cons_self)
      have hminus := (isDigit_ne hc).1
      have hplus := (isDigit_ne hc).2.1
      rw [hcons]
      simp only [readSigned?]
      split
      · simp_all
      · simp_all
      · cases readDigits? (c :: rest) <;> rfl
    rw [hread, readDigits?_toDigits]
    split
    · have habs : (i.natAbs : Int) = i := by omega
      exact congrArg some habs
    · rfl

end Integer

namespace Entries

variable {α β : Type} [BEq α]

theorem ofList_append_singleton (items : List (α × β)) (e : α × β) :
    ofList (items ++ [e]) = put (ofList items) e.1 e.2 := by
  simp [ofList, List.foldl_append]

theorem mem_fst_ofList [LawfulBEq α] {items : List (α × β)} {name : α} (h : name ∈ (ofList items).map (·.1)) :
    name ∈ items.map (·.1) := by
  induction items using List.reverseRecOn with
  | nil => exact h
  | append_singleton items e ih =>
    rw [ofList_append_singleton, map_fst_put] at h
    rw [List.map_append, List.mem_append]
    split at h
    · exact .inl (ih h)
    · rcases List.mem_append.1 h with h | h
      · exact .inl (ih h)
      · exact .inr h

theorem contains_iff_mem [LawfulBEq α] {entries : List (α × β)} {name : α} :
    contains entries name = true ↔ name ∈ entries.map (·.1) := by
  simp [contains, List.any_eq_true]

/-- Entries whose names differ stand as they are. -/
theorem ofList_of_nodup [LawfulBEq α] {items : List (α × β)} (h : (items.map (·.1)).Nodup) :
    ofList items = items := by
  induction items using List.reverseRecOn with
  | nil => rfl
  | append_singleton items e ih =>
    rw [List.map_append, List.nodup_append] at h
    have hnew : ¬ contains items e.1 = true := fun hc =>
      h.2.2 e.1 (contains_iff_mem.1 hc) e.1 (by simp) rfl
    rw [ofList_append_singleton, ih h.1, put, if_neg hnew]

end Entries

namespace Signature

theorem splitAt_of_not_mem {mark : Char} {piece : List Char} (h : mark ∉ piece) :
    splitAt mark piece = [piece] := by
  induction piece with
  | nil => rfl
  | cons c rest ih =>
    have hc : c ≠ mark := fun hc => h (by simp [hc])
    have hrest : mark ∉ rest := fun hr => h (List.mem_cons_of_mem c hr)
    rw [splitAt, if_neg hc, ih hrest]

theorem splitAt_append {mark : Char} {piece : List Char} (h : mark ∉ piece) (rest : List Char) :
    splitAt mark (piece ++ mark :: rest) = piece :: splitAt mark rest := by
  induction piece with
  | nil => rw [List.nil_append, splitAt, if_pos rfl]
  | cons c piece ih =>
    have hc : c ≠ mark := fun hc => h (by simp [hc])
    have hpiece : mark ∉ piece := fun hp => h (List.mem_cons_of_mem c hp)
    rw [List.cons_append, splitAt, if_neg hc, ih hpiece]

theorem join_cons {α : Type} (separator s : List α) {rest : List (List α)} (h : rest ≠ []) :
    join separator (s :: rest) = s ++ separator ++ join separator rest := by
  obtain ⟨t, rest, rfl⟩ := List.exists_cons_of_ne_nil h
  rfl

/-- Pieces that hold no mark are found again between the marks. -/
theorem splitAt_join {mark : Char} {pieces : List (List Char)} (hne : pieces ≠ [])
    (h : ∀ piece ∈ pieces, mark ∉ piece) : splitAt mark (join [mark] pieces) = pieces := by
  induction pieces with
  | nil => exact absurd rfl hne
  | cons piece rest ih =>
    have hpiece := h piece List.mem_cons_self
    by_cases hrest : rest = []
    · rw [hrest]
      exact splitAt_of_not_mem hpiece
    · rw [join_cons [mark] piece hrest, List.append_assoc, List.singleton_append,
        splitAt_append hpiece, ih hrest fun p hp => h p (List.mem_cons_of_mem piece hp)]

theorem mem_join {α : Type} {separator : List α} {pieces : List (List α)} {c : α}
    (hc : c ∈ join separator pieces) : c ∈ separator ∨ ∃ piece ∈ pieces, c ∈ piece := by
  induction pieces with
  | nil => exact absurd hc List.not_mem_nil
  | cons piece rest ih =>
    by_cases hrest : rest = []
    · rw [hrest] at hc
      exact .inr ⟨piece, List.mem_cons_self, hc⟩
    · rw [join_cons separator piece hrest, List.mem_append, List.mem_append] at hc
      rcases hc with (hc | hc) | hc
      · exact .inr ⟨piece, List.mem_cons_self, hc⟩
      · exact .inl hc
      · exact (ih hc).imp_right fun ⟨p, hp, hcp⟩ => ⟨p, List.mem_cons_of_mem piece hp, hcp⟩

theorem join_ne_nil {separator : List Char} {pieces : List (List Char)} (hne : pieces ≠ [])
    (h : [] ∉ pieces) : join separator pieces ≠ [] := by
  obtain ⟨piece, rest, rfl⟩ := List.exists_cons_of_ne_nil hne
  have hpiece : piece ≠ [] := fun he => h (he ▸ List.mem_cons_self)
  cases rest <;> simp [join, hpiece]

/-- Texts that are not empty keep their ends when they are joined. -/
theorem join_ends {separator : List Char} {pieces : List (List Char)} (h : [] ∉ pieces) :
    (∀ c ∈ (join separator pieces).head?, ∃ piece ∈ pieces, c ∈ piece) ∧
      ∀ c ∈ (join separator pieces).getLast?, ∃ piece ∈ pieces, c ∈ piece := by
  induction pieces with
  | nil => simp [join]
  | cons piece rest ih =>
    have hpiece : piece ≠ [] := fun he => h (he ▸ List.mem_cons_self)
    by_cases hrest : rest = []
    · rw [hrest]
      exact ⟨fun c hc => ⟨piece, List.mem_cons_self, List.mem_of_mem_head? hc⟩,
        fun c hc => ⟨piece, List.mem_cons_self, List.mem_of_mem_getLast? hc⟩⟩
    · obtain ⟨-, ihlast⟩ := ih fun he => h (List.mem_cons_of_mem piece he)
      have hne : join separator rest ≠ [] :=
        join_ne_nil hrest fun he => h (List.mem_cons_of_mem piece he)
      rw [join_cons separator piece hrest]
      constructor
      · intro c hc
        rw [List.append_assoc, List.head?_append_of_ne_nil _ hpiece] at hc
        exact ⟨piece, List.mem_cons_self, List.mem_of_mem_head? hc⟩
      · intro c hc
        rw [List.getLast?_append_of_ne_nil _ hne] at hc
        obtain ⟨p, hp, hcp⟩ := ihlast c hc
        exact ⟨p, List.mem_cons_of_mem piece hp, hcp⟩

def assign (field : List Char × List Char) : List Char := field.1 ++ '=' :: field.2

theorem field?_assign {field : List Char × List Char} (h : '=' ∉ field.1) :
    field? '=' Text.trim (assign field) = some (Text.trim field.1, Text.trim field.2) := by
  have hall : ∀ c ∈ field.1, (c != '=') = true := fun c hc =>
    bne_iff_ne.2 fun he => h (he ▸ hc)
  rw [field?, assign, List.dropWhile_append_of_pos hall, List.takeWhile_append_of_pos hall]
  simp

/-- A field that is read as it is written. -/
structure IsPlainField (field : List Char × List Char) : Prop where
  key : '=' ∉ field.1 ∧ ',' ∉ field.1 ∧ Text.trim field.1 = field.1
  value : ',' ∉ field.2 ∧ Text.trim field.2 = field.2

/-- The fields of a text are those that were written into it. -/
theorem fields_join {written : List (List Char × List Char)} (hne : written ≠ [])
    (hplain : ∀ field ∈ written, IsPlainField field) (hnodup : (written.map (·.1)).Nodup) :
    fields (join [','] (written.map assign)) = written := by
  have hcomma : ∀ piece ∈ written.map assign, ',' ∉ piece := by
    intro piece hpiece
    obtain ⟨field, hfield, rfl⟩ := List.mem_map.1 hpiece
    obtain ⟨hkey, hvalue⟩ := hplain field hfield
    simp [assign, hkey.2.1, hvalue.1]
  have hread : (written.map assign).filterMap (field? '=' Text.trim) = written := by
    rw [List.filterMap_map]
    refine (List.filterMap_congr fun field hfield => ?_).trans List.filterMap_some
    obtain ⟨hkey, hvalue⟩ := hplain field hfield
    rw [Function.comp_apply, field?_assign hkey.1, hkey.2.2, hvalue.2]
  rw [fields, splitAt_join (by simpa using hne) hcomma, hread, Entries.ofList_of_nodup hnodup]

/-- A name that a signature can carry: ASCII without commas and blanks, and not empty. -/
structure IsHeaderName (name : String) : Prop where
  ne_empty : name ≠ ""
  plain : ∀ c ∈ name.toList, c.toNat < 0x80 ∧ c ≠ ',' ∧ Text.isBlank c = false

instance (name : String) : Decidable (IsHeaderName name) :=
  decidable_of_iff (name ≠ "" ∧ name.toList.all (fun c =>
      c.toNat < 0x80 ∧ c ≠ ',' ∧ Text.isBlank c = false) = true)
    ⟨fun h => ⟨h.1, by simpa using h.2⟩, fun h => ⟨h.ne_empty, by simpa using h.plain⟩⟩

/-- The text of a signature can carry all of it. -/
structure IsNormal (s : Signature) : Prop where
  digest : s.v0.isSome ∨ s.v1.isSome
  names : ∀ name ∈ s.headerNames, IsHeaderName name ∧ Text.lowerString name = name

def namesText (s : Signature) : List Char := join [' '] (s.headerNames.map String.toList)

/-- The text of the names is read as it is written, and the names are what is read from it. -/
structure IsCarried (s : Signature) : Prop where
  digest : s.v0.isSome ∨ s.v1.isSome
  comma : ',' ∉ s.namesText
  trim : Text.trim s.namesText = s.namesText
  lower : Text.lower s.namesText = s.namesText
  names : (if s.namesText.isEmpty then [] else (splitAt ' ' s.namesText).map String.ofList) =
    s.headerNames

/-- The fields of the text of a signature. -/
def written (s : Signature) : List (List Char × List Char) :=
  [(['t'], Integer.write s.timestamp)] ++
    (s.v0.map fun digest => (['v', '0'], Text.hexEncode digest)).toList ++
    (s.v1.map fun digest => (['v', '1'], Text.hexEncode digest)).toList ++
    (if s.headerNames.isEmpty then [] else [(['h'], s.namesText)])

theorem toHeader_eq (s : Signature) :
    s.toHeader = String.ofList (join [','] (s.written.map assign)) := by
  obtain ⟨t, v1, v0, names⟩ := s
  cases v0 <;> cases v1 <;> cases names <;> simp [toHeader, written, namesText, assign]

theorem get?_written (s : Signature) :
    Entries.get? s.written ['t'] = some (Integer.write s.timestamp) ∧
      Entries.get? s.written ['v', '0'] = s.v0.map Text.hexEncode ∧
      Entries.get? s.written ['v', '1'] = s.v1.map Text.hexEncode ∧
      (Entries.get? s.written ['h']).getD [] = s.namesText := by
  obtain ⟨t, v1, v0, names⟩ := s
  cases v0 <;> cases v1 <;> cases names <;> simp [written, namesText, join, Entries.get?_cons]

theorem readDigest_of_get? {fields : List (List Char × List Char)} {name : String}
    {digest : Option Bytes} (h : Entries.get? fields name.toList = digest.map Text.hexEncode) :
    readDigest fields name = .ok digest := by
  cases digest with
  | none => rw [readDigest, h, Option.map_none]
  | some bytes => simp only [readDigest, h, Option.map_some, Text.hexDecode?_hexEncode]

theorem IsHeaderName.toList_lowerString {name : String} (h : IsHeaderName name) :
    (Text.lowerString name).toList = name.toList.map Char.toLower := by
  rw [Text.lowerString, String.toList_ofList, Text.lower_of_isAscii fun c hc => (h.plain c hc).1]

theorem IsHeaderName.lowerString {name : String} (h : IsHeaderName name) :
    IsHeaderName (Text.lowerString name) := by
  have hlist := h.toList_lowerString
  refine ⟨fun hempty => h.ne_empty ?_, fun c hc => ?_⟩
  · rw [hempty] at hlist
    simpa using hlist.symm
  · rw [hlist] at hc
    obtain ⟨d, hd, rfl⟩ := List.mem_map.1 hc
    obtain ⟨hascii, hcomma, hblank⟩ := h.plain d hd
    obtain ⟨hlow, -, hsame, heq⟩ := Text.toLower_of_isAscii hascii
    exact ⟨hlow, fun he => hcomma (hsame.1 he), heq.trans hblank⟩

theorem IsHeaderName.lowerString_idem {name : String} (h : IsHeaderName name) :
    Text.lowerString (Text.lowerString name) = Text.lowerString name := by
  rw [← String.toList_inj, h.lowerString.toList_lowerString, h.toList_lowerString, List.map_map]
  exact List.map_congr_left fun c hc => (Text.toLower_of_isAscii (h.plain c hc).1).2.1

theorem nil_notMem_names {names : List String} (h : ∀ name ∈ names, name ≠ "") :
    [] ∉ names.map String.toList := by
  intro hmem
  obtain ⟨name, hname, hempty⟩ := List.mem_map.1 hmem
  exact h name hname (String.toList_eq_nil_iff.1 hempty)

section Normal

variable {s : Signature} (h : s.IsNormal)
include h

theorem IsNormal.mem_namesText {c : Char} (hc : c ∈ s.namesText) :
    c.toNat < 0x80 ∧ c ≠ ',' ∧ c.toLower = c := by
  rcases mem_join hc with hc | ⟨piece, hpiece, hc⟩
  · obtain rfl := List.mem_singleton.1 hc
    decide
  · obtain ⟨name, hname, rfl⟩ := List.mem_map.1 hpiece
    obtain ⟨hplain, hlower⟩ := h.names name hname
    have hmap : name.toList.map Char.toLower = name.toList.map id := by
      rw [← hplain.toList_lowerString, hlower, List.map_id]
    have hp := hplain.plain c hc
    exact ⟨hp.1, hp.2.1, List.map_inj_left.1 hmap c hc⟩

theorem IsNormal.trim_namesText : Text.trim s.namesText = s.namesText := by
  have hne := nil_notMem_names fun name hname => (h.names name hname).1.ne_empty
  have hblank : ∀ c : Char, (∃ piece ∈ s.headerNames.map String.toList, c ∈ piece) →
      Text.isBlank c = false := by
    rintro c ⟨piece, hpiece, hc⟩
    obtain ⟨name, hname, rfl⟩ := List.mem_map.1 hpiece
    exact ((h.names name hname).1.plain c hc).2.2
  have hends := @join_ends [' '] _ hne
  exact Text.trimBy_of_ends (fun c hc => hblank c (hends.1 c hc))
    fun c hc => hblank c (hends.2 c hc)

theorem IsNormal.splitAt_namesText (hne : s.headerNames ≠ []) :
    (splitAt ' ' s.namesText).map String.ofList = s.headerNames := by
  have hsplit : splitAt ' ' s.namesText = s.headerNames.map String.toList := by
    refine splitAt_join (by simpa using hne) fun piece hpiece hblank => ?_
    obtain ⟨name, hname, rfl⟩ := List.mem_map.1 hpiece
    exact absurd ((h.names name hname).1.plain ' ' hblank).2.2 (by decide)
  rw [hsplit, List.map_map]
  simp

theorem IsNormal.isCarried : s.IsCarried where
  digest := h.digest
  comma := fun hc => (h.mem_namesText hc).2.1 rfl
  trim := h.trim_namesText
  lower := by
    rw [Text.lower_of_isAscii fun c hc => (h.mem_namesText hc).1]
    exact (List.map_congr_left fun c hc => (h.mem_namesText hc).2.2).trans (List.map_id _)
  names := by
    by_cases hne : s.headerNames = []
    · simp [namesText, hne, join]
    · have hsplit := h.splitAt_namesText hne
      have htext : s.namesText ≠ [] := join_ne_nil (by simpa using hne)
        (nil_notMem_names fun name hname => (h.names name hname).1.ne_empty)
      simp only [List.isEmpty_iff, htext, if_false, hsplit]

end Normal

section Carried

variable {s : Signature} (h : s.IsCarried)
include h

theorem IsCarried.isPlainField_written {field : List Char × List Char} (hf : field ∈ s.written) :
    IsPlainField field := by
  have hplain {key value : List Char} (hkey : '=' ∉ key ∧ ',' ∉ key ∧ Text.trim key = key)
      (hvalue : ∀ c ∈ value, c ≠ ',' ∧ Text.isBlank c = false) : IsPlainField (key, value) :=
    ⟨hkey, fun hc => (hvalue ',' hc).1 rfl, Text.trimBy_of_forall fun c hc => (hvalue c hc).2⟩
  simp only [written, List.mem_append, List.mem_singleton, Option.mem_toList,
    Option.map_eq_some_iff, List.mem_ite_nil_left] at hf
  rcases hf with ((rfl | ⟨digest, -, rfl⟩) | ⟨digest, -, rfl⟩) | ⟨-, rfl⟩
  · exact hplain (by decide) fun c hc => Integer.write_plain hc
  · exact hplain (by decide) fun c hc => Text.hexEncode_plain hc
  · exact hplain (by decide) fun c hc => Text.hexEncode_plain hc
  · exact ⟨by simp only; decide, h.comma, h.trim⟩

theorem IsCarried.fields_toHeader : fields s.toHeader.toList = s.written := by
  rw [toHeader_eq, String.toList_ofList]
  refine fields_join (by simp [written]) (fun field hf => h.isPlainField_written hf) ?_
  obtain ⟨t, v1, v0, names⟩ := s
  cases v0 <;> cases v1 <;> cases names <;> simp [written]

theorem IsCarried.readNames_written : readNames s.written = s.headerNames := by
  obtain ⟨-, -, -, hget⟩ := get?_written s
  simp only [readNames, hget, h.trim, h.lower, h.names]

/-- A signature with a digest whose text carries its names is read back unless its timestamp has too
many digits. -/
theorem IsCarried.parse_toHeader : parse s.toHeader =
    if Integer.digitCount s.timestamp ≤ Integer.maxDigits then .ok s
    else .error (.invalidTimestamp (String.ofList (Integer.write s.timestamp))) := by
  obtain ⟨ht, hget0, hget1, -⟩ := get?_written s
  have hv0 : readDigest s.written "v0" = .ok s.v0 := readDigest_of_get? hget0
  have hv1 : readDigest s.written "v1" = .ok s.v1 := readDigest_of_get? hget1
  have hdigest : (s.v0.isNone && s.v1.isNone) = false := by
    have := h.digest
    cases h0 : s.v0 <;> cases h1 : s.v1 <;> simp_all
  simp only [parse, h.fields_toHeader, ht, Integer.read?_write]
  by_cases hcount : Integer.digitCount s.timestamp ≤ Integer.maxDigits
  · simp only [if_pos hcount, hv0, hv1, hdigest, h.readNames_written]
    rfl
  · simp only [if_neg hcount]

end Carried

/-- A signature with a digest and ordinary names is read back unless its timestamp has too many
digits. -/
theorem parse_toHeader {s : Signature} (h : s.IsNormal) : parse s.toHeader =
    if Integer.digitCount s.timestamp ≤ Integer.maxDigits then .ok s
    else .error (.invalidTimestamp (String.ofList (Integer.write s.timestamp))) :=
  h.isCarried.parse_toHeader

end Signature
end WebhookDelivery
