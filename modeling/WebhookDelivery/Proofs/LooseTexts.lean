import Mathlib.Data.List.Basic
import Mathlib.Logic.Function.Basic
import WebhookDelivery.Proofs.SignatureText
import WebhookDelivery.Signature.Loose

/-!
# WebhookDelivery.Proofs.LooseTexts

On texts that are made of characters, signatures of loose texts are those of texts.

* `Signature.splitAt_map`, `Signature.join_map`, `Entries.ofList_map`: what is done with the pieces and
  the entries of a text is done with their images.
* `LooseSignature.parse?_ofString`, `LooseSignature.sign_ofString`, `LooseSignature.verify_ofString`:
  reading, signing and verifying.
* `LooseSignature.canonicalContent_eq_error_iff`: the names and values that cannot be covered.
-/

namespace WebhookDelivery

/-! ## Images -/

namespace Entries

variable {α β α' β' : Type} [BEq α] [LawfulBEq α] [BEq α'] [LawfulBEq α'] {f : α → α'} (g : β → β')
  (hf : Function.Injective f)
include hf

theorem beq_map (a b : α) : (f a == f b) = (a == b) := by
  rw [Bool.eq_iff_iff, beq_iff_eq, beq_iff_eq]
  exact hf.eq_iff

theorem get?_map (entries : List (α × β)) (name : α) :
    get? (entries.map (Prod.map f g)) (f name) = (get? entries name).map g := by
  induction entries with
  | nil => rfl
  | cons e rest ih =>
    rw [List.map_cons, get?_cons, get?_cons, ih, Prod.map_fst, beq_map hf]
    split <;> rfl

theorem contains_map (entries : List (α × β)) (name : α) :
    contains (entries.map (Prod.map f g)) (f name) = contains entries name := by
  rw [← isSome_get?, ← isSome_get?, get?_map g hf, Option.isSome_map]

theorem put_map (entries : List (α × β)) (name : α) (value : β) :
    put (entries.map (Prod.map f g)) (f name) (g value) =
      (put entries name value).map (Prod.map f g) := by
  unfold put
  rw [contains_map g hf]
  split
  · rw [List.map_map, List.map_map]
    refine List.map_congr_left fun e _ => ?_
    rw [Function.comp_apply, Function.comp_apply, Prod.map_fst, beq_map hf]
    split <;> rfl
  · rw [List.map_append]
    rfl

theorem ofList_map (items : List (α × β)) :
    ofList (items.map (Prod.map f g)) = (ofList items).map (Prod.map f g) := by
  induction items using List.reverseRecOn with
  | nil => rfl
  | append_singleton items e ih =>
    rw [List.map_append, List.map_singleton, ofList_append_singleton, ofList_append_singleton, ih]
    exact put_map g hf _ _ _

end Entries

namespace Signature

variable {α β : Type}

theorem join_map (f : α → β) (separator : List α) (pieces : List (List α)) :
    join (separator.map f) (pieces.map (List.map f)) = (join separator pieces).map f := by
  induction pieces with
  | nil => rfl
  | cons piece rest ih =>
    by_cases hrest : rest = []
    · rw [hrest]
      rfl
    · have hmap : rest.map (List.map f) ≠ [] := by simpa using hrest
      rw [List.map_cons, join_cons _ _ hmap, join_cons _ _ hrest, ih, List.map_append,
        List.map_append]

theorem mem_join_of_mem {separator : List α} {pieces : List (List α)} {piece : List α} {c : α}
    (hpiece : piece ∈ pieces) (hc : c ∈ piece) : c ∈ join separator pieces := by
  induction pieces with
  | nil => exact absurd hpiece List.not_mem_nil
  | cons first rest ih =>
    by_cases hrest : rest = []
    · rw [hrest] at hpiece ⊢
      rw [List.mem_singleton.1 hpiece] at hc
      exact hc
    · rw [join_cons _ _ hrest, List.mem_append, List.mem_append]
      rcases List.mem_cons.1 hpiece with rfl | hpiece
      · exact .inl (.inl hc)
      · exact .inr (ih hpiece)

variable [DecidableEq α] [DecidableEq β] {f : α → β}

theorem splitAt_map (hf : Function.Injective f) (mark : α) (s : List α) :
    splitAt (f mark) (s.map f) = (splitAt mark s).map (List.map f) := by
  induction s with
  | nil => rfl
  | cons c rest ih =>
    rw [List.map_cons, splitAt, splitAt, ih]
    by_cases hc : c = mark
    · rw [if_pos hc, if_pos (congrArg f hc)]
      rfl
    · rw [if_neg hc, if_neg (hf.ne hc)]
      cases splitAt mark rest <;> rfl

theorem field?_map (hf : Function.Injective f) {trim : List α → List α} {trim' : List β → List β}
    (htrim : ∀ s, trim' (s.map f) = (trim s).map f) (mark : α) (piece : List α) :
    field? (f mark) trim' (piece.map f) =
      (field? mark trim piece).map (Prod.map (List.map f) (List.map f)) := by
  have hmark : (fun c : β => c != f mark) ∘ f = fun c => c != mark := by
    funext c
    rw [Function.comp_apply, bne, bne, Entries.beq_map hf]
  unfold field?
  rw [List.dropWhile_map, List.takeWhile_map, hmark]
  cases piece.dropWhile fun c => c != mark with
  | nil => rfl
  | cons c value => simp [htrim]

end Signature

/-! ## Texts made of characters -/

namespace LooseText

theorem char_injective : Function.Injective CodePoint.char := fun _ _ h => CodePoint.char.inj h

theorem ofChars_injective : Function.Injective ofChars := List.map_injective_iff.2 char_injective

theorem ofString_injective : Function.Injective ofString :=
  ofChars_injective.comp fun _ _ h => String.toList_inj.1 h

theorem trim_ofChars (s : List Char) : (ofChars s).trim = ofChars (Text.trim s) := by
  have hdrop (s : List Char) :
      (ofChars s).dropWhile CodePoint.isBlank = ofChars (s.dropWhile Text.isBlank) :=
    List.dropWhile_map ..
  have hreverse (s : List Char) : (ofChars s).reverse = ofChars s.reverse := List.map_reverse.symm
  rw [trim, Text.trimBy, hdrop, hreverse, hdrop, hreverse]
  rfl

theorem hasHalf_join {mark : Char} {pieces : List LooseText} :
    HasHalf (Signature.join [.char mark] pieces) ↔ ∃ piece ∈ pieces, piece.HasHalf := by
  constructor
  · rintro ⟨c, hc, hhalf⟩
    rcases Signature.mem_join hc with hmark | ⟨piece, hpiece, hmem⟩
    · rw [List.mem_singleton.1 hmark] at hhalf
      cases hhalf
    · exact ⟨piece, hpiece, c, hmem, hhalf⟩
  · rintro ⟨piece, hpiece, c, hc, hhalf⟩
    exact ⟨c, Signature.mem_join_of_mem hpiece hc, hhalf⟩

end LooseText

namespace Signature

/-- A signature with its names as loose texts. -/
def toLoose (s : Signature) : LooseSignature :=
  ⟨s.timestamp, s.v1, s.v0, s.headerNames.map LooseText.ofString⟩

end Signature

/-- Headers as loose texts. -/
def looseHeaders (headers : List (String × String)) : List (LooseText × LooseText) :=
  headers.map (Prod.map LooseText.ofString LooseText.ofString)

namespace LooseSignature

open LooseText (ofChars ofString ofChars_injective ofString_injective char_injective)

/-! ## Reading -/

theorem fields_ofChars (s : List Char) :
    fields (ofChars s) = (Signature.fields s).map (Prod.map ofChars ofChars) := by
  have hsplit : Signature.splitAt (.char ',') (ofChars s) =
      (Signature.splitAt ',' s).map ofChars := Signature.splitAt_map char_injective ',' s
  have hfield (piece : List Char) : Signature.field? (.char '=') LooseText.trim (ofChars piece) =
      (Signature.field? '=' Text.trim piece).map (Prod.map ofChars ofChars) :=
    Signature.field?_map char_injective LooseText.trim_ofChars '=' piece
  rw [fields, hsplit, List.filterMap_map, Signature.fields, ← Entries.ofList_map _ ofChars_injective,
    List.map_filterMap]
  exact congrArg Entries.ofList (List.filterMap_congr fun piece _ => hfield piece)

theorem get?_fields_ofChars (s : List Char) (name : String) :
    Entries.get? (fields (ofChars s)) (ofString name) =
      (Entries.get? (Signature.fields s) name.toList).map ofChars := by
  rw [fields_ofChars]
  exact Entries.get?_map _ ofChars_injective _ _

theorem readDigest?_ofChars (s : List Char) (name : String) :
    readDigest? (fields (ofChars s)) name =
      (Signature.readDigest (Signature.fields s) name).toOption := by
  unfold readDigest? Signature.readDigest
  rw [get?_fields_ofChars]
  cases Entries.get? (Signature.fields s) name.toList with
  | none => rfl
  | some text =>
    simp only [Option.map_some, LooseText.chars?_ofChars, Option.bind_some]
    cases Text.hexDecode? text <;> rfl

theorem readNames_ofChars (s : List Char) :
    readNames (fields (ofChars s)) =
      (Signature.readNames (Signature.fields s)).map ofString := by
  have hget : (Entries.get? (fields (ofChars s)) (ofString "h")).getD [] =
      ofChars ((Entries.get? (Signature.fields s) ['h']).getD []) := by
    rw [get?_fields_ofChars, show "h".toList = ['h'] from rfl]
    cases Entries.get? (Signature.fields s) ['h'] <;> rfl
  unfold readNames Signature.readNames
  rw [hget, LooseText.trim_ofChars, LooseText.lower_ofChars]
  dsimp only
  generalize Text.lower (Text.trim ((Entries.get? (Signature.fields s) ['h']).getD [])) = text
  have hempty : (ofChars text).isEmpty = text.isEmpty := List.isEmpty_map
  rw [hempty]
  split
  · rfl
  · have hsplit : Signature.splitAt (.char ' ') (ofChars text) =
        (Signature.splitAt ' ' text).map ofChars := Signature.splitAt_map char_injective ' ' text
    rw [hsplit, List.map_map]
    exact List.map_congr_left fun piece _ => by
      rw [Function.comp_apply, ofString, String.toList_ofList]

theorem parse?_ofString (value : String) :
    parse? (ofString value) = (Signature.parse value).toOption.map Signature.toLoose := by
  have ht : (Entries.get? (fields (ofString value)) (ofString "t")).bind
      (fun text => text.chars?.bind Integer.read?) =
      (Entries.get? (Signature.fields value.toList) ['t']).bind Integer.read? := by
    rw [ofString, get?_fields_ofChars, show "t".toList = ['t'] from rfl]
    cases Entries.get? (Signature.fields value.toList) ['t'] <;> simp
  have hv0 := readDigest?_ofChars value.toList "v0"
  have hv1 := readDigest?_ofChars value.toList "v1"
  have hnames := readNames_ofChars value.toList
  unfold parse? Signature.parse
  dsimp only
  rw [ht, show ofString value = ofChars value.toList from rfl, hv0, hv1, hnames]
  cases Entries.get? (Signature.fields value.toList) ['t'] with
  | none => rfl
  | some text =>
    rw [Option.bind_some]
    cases hread : Integer.read? text with
    | none => simp [hread, Except.toOption]
    | some timestamp =>
      simp only [hread]
      cases Signature.readDigest (Signature.fields value.toList) "v0" with
      | error e => rfl
      | ok v0 =>
        cases Signature.readDigest (Signature.fields value.toList) "v1" with
        | error e => rfl
        | ok v1 =>
          simp only [Except.toOption]
          split <;> rfl

/-! ## Signing -/

theorem join_ofStrings (mark : Char) (texts : List String) :
    Signature.join [.char mark] (texts.map ofString) =
      ofChars (Signature.join [mark] (texts.map String.toList)) := by
  have hjoin := Signature.join_map CodePoint.char [mark] (texts.map String.toList)
  rw [List.map_map] at hjoin
  exact hjoin

theorem toHeader_toLoose (s : Signature) : s.toLoose.toHeader = ofString s.toHeader := by
  obtain ⟨timestamp, v1, v0, names⟩ := s
  have hnames : ofChars ['h', '='] ++ Signature.join [.char ' '] (names.map ofString) =
      ofChars (Signature.assign (['h'], Signature.join [' '] (names.map String.toList))) := by
    rw [join_ofStrings]
    exact List.map_append.symm
  rw [Signature.toHeader_eq, ofString, String.toList_ofList, ofChars, ← Signature.join_map]
  refine congrArg (Signature.join [CodePoint.char ',']) ?_
  simp only [Signature.toLoose, hnames, Signature.written, Signature.namesText]
  cases v0 <;> cases v1 <;> cases names <;> rfl

theorem lowerNames_looseHeaders (headers : List (String × String)) :
    lowerNames (looseHeaders headers) = looseHeaders (Signature.lowerNames headers) := by
  rw [Signature.lowerNames, looseHeaders, looseHeaders, ← Entries.ofList_map _ ofString_injective,
    lowerNames, List.map_map, List.map_map]
  refine congrArg Entries.ofList (List.map_congr_left fun h _ => ?_)
  simp [ofString, Text.lowerString]

theorem canonicalContent_ofStrings (payload : Bytes) (timestamp : Int) (names values : List String) :
    canonicalContent payload timestamp (names.map ofString) (values.map ofString) =
      .ok (Signature.canonicalContent payload timestamp names values) := by
  have hempty : (ofChars (Signature.join [' '] (names.map String.toList))).isEmpty =
      (Signature.join [' '] (names.map String.toList)).isEmpty := List.isEmpty_map
  unfold canonicalContent Signature.canonicalContent
  dsimp only
  rw [join_ofStrings, join_ofStrings, LooseText.utf8_ofChars, LooseText.utf8_ofChars, hempty]
  split <;> rfl

theorem computeDigest_ofString (secret : String) (content : Bytes) :
    computeDigest (ofString secret) content = .ok (Signature.computeDigest secret content) := by
  rw [computeDigest, ofString, LooseText.utf8_ofChars]
  rfl

/-- Texts are signed as they are as loose texts. -/
theorem sign_ofString (payload : Bytes) (timestamp : Int) (secret : String)
    (headers : List (String × String)) :
    sign payload timestamp (ofString secret) (looseHeaders headers) =
      .ok (ofString (Signature.sign payload timestamp secret headers)) := by
  have hnames : (looseHeaders (Signature.lowerNames headers)).map (·.1) =
      ((Signature.lowerNames headers).map (·.1)).map ofString := by
    simp [looseHeaders]
  have hvalues : (looseHeaders (Signature.lowerNames headers)).map (·.2) =
      ((Signature.lowerNames headers).map (·.2)).map ofString := by
    simp [looseHeaders]
  simp only [sign, lowerNames_looseHeaders, hnames, hvalues, canonicalContent_ofStrings,
    computeDigest_ofString, Signature.sign, ← toHeader_toLoose]
  rfl

/-! ## Verifying -/

theorem mapM_ofString {f : String → Option String} {g : LooseText → Option LooseText}
    (hg : ∀ name, g (ofString name) = (f name).map ofString) (names : List String) :
    (names.map ofString).mapM g = (names.mapM f).map (List.map ofString) := by
  induction names with
  | nil => rfl
  | cons name rest ih =>
    rw [List.map_cons, List.mapM_cons, List.mapM_cons, hg, ih]
    cases f name with
    | none => rfl
    | some value => cases rest.mapM f <;> rfl

theorem claimed?_toLoose (s : Signature) (payload : Bytes) (headers : List (String × String)) :
    s.toLoose.claimed? payload (looseHeaders headers) =
      (s.claimed? payload headers).map fun claimed => (.ok claimed.1, claimed.2) := by
  obtain ⟨timestamp, v1, v0, names⟩ := s
  have hvalues : (names.map ofString).mapM
      (Entries.get? (lowerNames (looseHeaders headers))) =
        (names.mapM (Entries.get? (Signature.lowerNames headers))).map (List.map ofString) :=
    mapM_ofString (fun name => by
      rw [lowerNames_looseHeaders]
      exact Entries.get?_map _ ofString_injective _ _) names
  cases v1 with
  | none =>
    exact congrArg (fun content => some (content, v0.getD []))
      (canonicalContent_ofStrings payload timestamp [] [])
  | some digest =>
    simp only [claimed?, Signature.claimed?, Signature.toLoose, hvalues, Option.map_map]
    refine congrArg (Option.map · _) (funext fun values => ?_)
    simp only [Function.comp_apply, canonicalContent_ofStrings]

theorem matchesAny_toLoose (s : Signature) (payload : Bytes) (secrets : List String)
    (headers : List (String × String)) :
    s.toLoose.matchesAny payload (secrets.map ofString) (looseHeaders headers) =
      .ok (s.matchesAny payload secrets headers) := by
  have hdigests (content : Bytes) :
      (secrets.map ofString).mapM (computeDigest · content) =
        .ok (secrets.map (Signature.computeDigest · content)) := by
    induction secrets with
    | nil => rfl
    | cons secret rest ih =>
      rw [List.map_cons, List.mapM_cons, computeDigest_ofString, ih]
      rfl
  rw [matchesAny, claimed?_toLoose, Signature.matchesAny]
  cases s.claimed? payload headers with
  | none => rfl
  | some claimed =>
    obtain ⟨content, digest⟩ := claimed
    simp only [Option.map_some, hdigests, Except.map, List.any_map]
    rfl

/-- Texts are verified as they are as loose texts. -/
theorem verify_ofString (signature : String) (payload : Bytes) (secrets : List String)
    (headers : List (String × String)) (tolerance : Option Int) (now : Seconds) :
    verify (ofString signature) payload (secrets.map ofString) (looseHeaders headers) tolerance now =
      (Signature.verify signature payload secrets headers tolerance now).mapError .clock := by
  rw [verify, Signature.verify, parse?_ofString]
  cases Signature.parse signature with
  | error e => rfl
  | ok s =>
    have hmatches := matchesAny_toLoose s payload secrets headers
    simp only [Except.toOption, Option.map_some, hmatches]
    cases tolerance with
    | none => rfl
    | some seconds =>
      have htimestamp : s.toLoose.timestamp = s.timestamp := rfl
      simp only [htimestamp]
      cases now.farFrom s.timestamp seconds with
      | error e => rfl
      | ok far => cases far <;> rfl

/-! ## What cannot be covered -/

/-- Names and values cannot be covered when there is half of a surrogate pair in one of them, unless
there are no names. -/
theorem canonicalContent_eq_error_iff (payload : Bytes) (timestamp : Int)
    (names values : List LooseText) :
    (∃ e, canonicalContent payload timestamp names values = .error e) ↔
      Signature.join [.char ' '] names ≠ [] ∧
        ∃ text ∈ names ++ values, LooseText.HasHalf text := by
  have hnames := LooseText.utf8_eq_error_iff (Signature.join [.char ' '] names)
  have hvalues := LooseText.utf8_eq_error_iff (Signature.join [.char '.'] values)
  rw [LooseText.hasHalf_join] at hnames hvalues
  have hboth : (∃ text ∈ names ++ values, LooseText.HasHalf text) ↔
      (∃ name ∈ names, LooseText.HasHalf name) ∨ ∃ value ∈ values, LooseText.HasHalf value := by
    simp only [List.mem_append, or_and_right, exists_or]
  rw [hboth, ← hnames, ← hvalues]
  unfold canonicalContent
  dsimp only
  by_cases hempty : Signature.join [.char ' '] names = []
  · simp [hempty]
  · rw [if_neg (by simpa using hempty)]
    cases LooseText.utf8 (Signature.join [.char ' '] names) with
    | error e => simp [hempty]
    | ok bytes =>
      cases LooseText.utf8 (Signature.join [.char '.'] values) with
      | error e => simp [hempty]
      | ok bytes => simp

end LooseSignature
end WebhookDelivery
