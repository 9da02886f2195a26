import Mathlib.Data.List.Nodup
import WebhookDelivery.Proofs.Encodings

/-!
# WebhookDelivery.Proofs.HeaderFields

What is put into a block of header fields and what is read from it.

* `put_eq_ok`, `putAll_eq_ok`: what headers that are put make of a block.
* `HeaderBlock.valuesOf`: the values of all fields of a name. `valuesOf_put_self` and
  `valuesOf_put_of_ne` say that a header that is put is then the only one of its name, and that the
  others stay.
* `Lists fields entries`: the names of the fields differ and are in ASCII, and in lower case they
  are the names of `entries`, whose values they have. `Lists.put` says that a header is put into
  both alike; `Lists.get?_eq_ok` and `Lists.toEntries_eq` that the entries are what is read.
-/

namespace WebhookDelivery

theorem bind_eq_ok {ε α β : Type} {x : Except ε α} {f : α → Except ε β} {b : β}
    (h : x >>= f = .ok b) : ∃ a, x = .ok a ∧ f a = .ok b := by
  cases x with
  | error e => cases h
  | ok a => exact ⟨a, rfl, h⟩

namespace HeaderField

/-- The key of the fields of a name. -/
def keyOf (name : String) : Bytes := asciiLower (Text.utf8String name)

/-- The field of a header that is a text. -/
def ofText (h : String × String) : HeaderField := ⟨Text.utf8String h.1, Text.utf8String h.2⟩

@[simp] theorem key_ofText (h : String × String) : (ofText h).key = keyOf h.1 := rfl

@[simp] theorem value_ofText (h : String × String) : (ofText h).value = Text.utf8String h.2 := rfl

end HeaderField

namespace HeaderEncoding

/-- Only in Latin-1 is a text not written as UTF-8. -/
theorem encode_eq_ok {e : HeaderEncoding} (he : e ≠ .latin1) {s : List Char} {bs : Bytes}
    (h : e.encode s = .ok bs) : bs = Text.utf8 s := by
  cases e with
  | ascii =>
    unfold encode at h
    dsimp only at h
    split at h <;> cases h
    rfl
  | utf8 =>
    cases h
    rfl
  | latin1 => exact absurd rfl he

theorem decode?_utf8 (s : String) : utf8.decode? (Text.utf8String s) = some s.toList :=
  Text.utf8Decode?_utf8 s.toList

theorem decode?_ascii (s : String) : ascii.decode? (Text.utf8String s) =
    if (Text.utf8String s).all (· < 0x80) then some s.toList else none := by
  rw [decode?]
  split
  · exact decode?_utf8 s
  · rfl

end HeaderEncoding

namespace Entries

variable {α β γ δ : Type} [BEq α] [LawfulBEq α] [BEq γ] [LawfulBEq γ]

/-- Names and values may be written in another way before or after a value is put. -/
theorem map_put {f : α → γ} (g : β → δ) (hf : Function.Injective f) (items : List (α × β))
    (name : α) (value : β) : (put items name value).map (fun e => (f e.1, g e.2)) =
      put (items.map fun e => (f e.1, g e.2)) (f name) (g value) := by
  have hbeq : ∀ a : α, (f a == f name) = (a == name) := by
    intro a
    by_cases ha : a = name
    · simp [ha]
    · simp [ha, hf.ne ha]
  have hcontains : contains (items.map fun e => (f e.1, g e.2)) (f name) =
      contains items name := by
    simp only [contains, List.any_map]
    congr 1
    funext e
    exact hbeq e.1
  unfold put
  rw [hcontains]
  split
  · rw [List.map_map, List.map_map]
    refine List.map_congr_left fun e _ => ?_
    simp only [Function.comp, hbeq]
    split <;> rfl
  · simp

theorem nodup_put {items : List (α × β)} (h : (items.map (·.1)).Nodup) (name : α) (value : β) :
    ((put items name value).map (·.1)).Nodup := by
  rw [map_fst_put]
  split
  · exact h
  · rename_i hc
    rw [List.nodup_append]
    refine ⟨h, by simp, ?_⟩
    rintro a ha b hb rfl
    obtain rfl := List.mem_singleton.1 hb
    exact hc (contains_iff_mem.2 ha)

/-- An entry is the new one or was there. -/
theorem mem_put {items : List (α × β)} {name : α} {value : β} {e : α × β}
    (h : e ∈ put items name value) : e = (name, value) ∨ e ∈ items := by
  unfold put at h
  split at h
  · obtain ⟨x, hx, rfl⟩ := List.mem_map.1 h
    by_cases hn : x.1 = name
    · exact .inl (by simp [hn])
    · exact .inr (by simpa [hn] using hx)
  · rcases List.mem_append.1 h with h | h
    · exact .inr h
    · exact .inl (List.mem_singleton.1 h)

/-- Where names differ, at most one entry has a name. -/
theorem filter_eq_find? {items : List (α × β)} (h : (items.map (·.1)).Nodup) (name : α) :
    items.filter (·.1 == name) = (items.find? (·.1 == name)).toList := by
  induction items with
  | nil => rfl
  | cons e rest ih =>
    rw [List.map_cons, List.nodup_cons] at h
    rw [List.filter_cons, List.find?_cons]
    by_cases he : e.1 = name
    · have hrest : rest.filter (·.1 == name) = [] := by
        rw [List.filter_eq_nil_iff]
        intro x hx hn
        exact h.1 (List.mem_map.2 ⟨x, hx, (eq_of_beq hn).trans he.symm⟩)
      simp [he, hrest]
    · have hne : (e.1 == name) = false := beq_eq_false_iff_ne.2 he
      simp [hne, ih h.2]

/-- Puts headers in turn, under their names in lower case. -/
def putLower (entries : List (String × String)) (headers : List (String × String)) :
    List (String × String) :=
  headers.foldl (fun entries h => put entries (Text.lowerString h.1) h.2) entries

theorem mem_fst_putLower {entries headers : List (String × String)} {name : String}
    (h : name ∈ (putLower entries headers).map (·.1)) :
    name ∈ entries.map (·.1) ∨ name ∈ headers.map fun h => Text.lowerString h.1 := by
  induction headers generalizing entries with
  | nil => exact .inl h
  | cons e rest ih =>
    rw [List.map_cons, List.mem_cons]
    rcases ih h with h | h
    · rw [map_fst_put] at h
      split at h
      · exact .inl h
      · rcases List.mem_append.1 h with h | h
        · exact .inl h
        · exact .inr (.inl (List.mem_singleton.1 h))
    · exact .inr (.inr h)

end Entries

namespace HeaderBlock

/-- The fields after one was put in. -/
def putField (field : HeaderField) (fields : List HeaderField) : List HeaderField :=
  (replaceFirst field fields).getD (fields ++ [field])

theorem putField_nil (field : HeaderField) : putField field [] = [field] := rfl

theorem putField_cons (field f : HeaderField) (rest : List HeaderField) :
    putField field (f :: rest) =
      if f.key = field.key then field :: rest.filter (·.key != field.key)
      else f :: putField field rest := by
  unfold putField
  rw [replaceFirst]
  split
  · rfl
  · cases replaceFirst field rest <;> rfl

theorem filter_putField (field : HeaderField) (fields : List HeaderField) (k : Bytes) :
    (putField field fields).filter (·.key == k) =
      if field.key = k then [field] else fields.filter (·.key == k) := by
  induction fields with
  | nil =>
    rw [putField_nil]
    by_cases hk : field.key = k <;> simp [hk]
  | cons f rest ih =>
    rw [putField_cons]
    by_cases hf : f.key = field.key
    · rw [if_pos hf]
      by_cases hk : field.key = k
      · simp only [List.filter_cons, List.filter_filter, hk, if_true, beq_self_eq_true]
        simp
      · have hfk : (f.key == k) = false := by simp [hf, hk]
        have hrest : (rest.filter (·.key != field.key)).filter (·.key == k) =
            rest.filter (·.key == k) := by
          rw [List.filter_filter]
          refine List.filter_congr fun x _ => ?_
          by_cases hx : x.key = k
          · simp [hx, Ne.symm hk]
          · simp [hx]
        simp only [List.filter_cons, hfk, hk, if_false, beq_eq_false_iff_ne.2 hk, hrest]
        simp
    · rw [if_neg hf, List.filter_cons, ih, List.filter_cons]
      by_cases hk : field.key = k
      · have hfk : (f.key == k) = false := by simpa [hk] using hf
        simp [hk, hfk]
      · simp only [hk, if_false]

/-- A field is the new one or was there. -/
theorem mem_putField {field f : HeaderField} {fields : List HeaderField}
    (h : f ∈ putField field fields) : f = field ∨ f ∈ fields := by
  induction fields with
  | nil => exact .inl (List.mem_singleton.1 h)
  | cons g rest ih =>
    rw [putField_cons] at h
    split at h
    · rcases List.mem_cons.1 h with rfl | h
      · exact .inl rfl
      · exact .inr (List.mem_cons_of_mem g (List.mem_of_mem_filter h))
    · rcases List.mem_cons.1 h with rfl | h
      · exact .inr List.mem_cons_self
      · exact (ih h).imp_right (List.mem_cons_of_mem g)

theorem mem_putField_self (field : HeaderField) (fields : List HeaderField) :
    field ∈ putField field fields := by
  have hfilter := filter_putField field fields field.key
  rw [if_pos rfl] at hfilter
  exact List.mem_of_mem_filter (hfilter ▸ List.mem_singleton_self field)

/-- What a header that is put makes of a block. -/
theorem put_eq_ok {b b' : HeaderBlock} (hb : b.encoding ≠ some .latin1) {name value : String}
    (h : b.put name value = .ok b') :
    b' = { b with fields := putField (.ofText (name, value)) b.fields } := by
  have he : b.encoding.getD .utf8 ≠ .latin1 := by
    cases hc : b.encoding with
    | none => simp
    | some e => simpa [hc] using hb
  unfold put at h
  dsimp only at h
  split at h
  · rename_i n v hn hv
    cases h
    rw [HeaderEncoding.encode_eq_ok he hn, HeaderEncoding.encode_eq_ok he hv]
    rfl
  · cases h

/-! ## Fields that are texts -/

/-- The fields after headers were put in, in turn. -/
def putFields (fields : List HeaderField) (headers : List (String × String)) : List HeaderField :=
  headers.foldl (fun fields h => putField (.ofText h) fields) fields

/-- The names and the values of the fields are texts. -/
def IsText (fields : List HeaderField) : Prop := ∀ f ∈ fields, ∃ h, f = .ofText h

theorem IsText.put {fields : List HeaderField} (hf : IsText fields) (h : String × String) :
    IsText (putField (.ofText h) fields) := by
  intro f hmem
  rcases mem_putField hmem with rfl | hmem
  · exact ⟨h, rfl⟩
  · exact hf f hmem

theorem IsText.putFields {fields : List HeaderField} (hf : IsText fields)
    (headers : List (String × String)) : IsText (putFields fields headers) := by
  induction headers generalizing fields with
  | nil => exact hf
  | cons h rest ih => exact ih (hf.put h)

/-- Texts are not read as Latin-1. -/
theorem IsText.encodingOf_ne {b : HeaderBlock} (h : IsText b.fields)
    (hb : b.encoding ≠ some .latin1) : b.encodingOf ≠ .latin1 := by
  have hreadable : b.readableIn .utf8 = true := by
    rw [readableIn, List.all_eq_true]
    intro f hf
    obtain ⟨header, rfl⟩ := h f hf
    rw [HeaderField.ofText, HeaderEncoding.decode?_utf8, HeaderEncoding.decode?_utf8]
    rfl
  unfold encodingOf
  cases he : b.encoding with
  | some e =>
    rintro rfl
    exact hb he
  | none =>
    rw [hreadable]
    dsimp only
    split
    · decide
    · decide

/-! ## Fields of a name -/

/-- The values of all fields of a name. -/
def valuesOf (b : HeaderBlock) (name : String) : List Bytes :=
  (b.fields.filter (·.key == HeaderField.keyOf name)).map (·.value)

theorem valuesOf_put_self {b b' : HeaderBlock} (hb : b.encoding ≠ some .latin1)
    {name value : String} (h : b.put name value = .ok b') :
    b'.valuesOf name = [Text.utf8String value] := by
  rw [put_eq_ok hb h, valuesOf]
  simp [filter_putField]

theorem valuesOf_put_of_ne {b b' : HeaderBlock} (hb : b.encoding ≠ some .latin1)
    {name value other : String} (hne : HeaderField.keyOf name ≠ HeaderField.keyOf other)
    (h : b.put name value = .ok b') : b'.valuesOf other = b.valuesOf other := by
  rw [put_eq_ok hb h, valuesOf, valuesOf]
  simp [filter_putField, hne]

/-- Puts headers in turn. -/
def putAll (b : HeaderBlock) (headers : List (String × String)) : Except HeaderError HeaderBlock :=
  headers.foldlM (fun b h => b.put h.1 h.2) b

theorem putAll_cons_eq_ok {b b' : HeaderBlock} {h : String × String}
    {rest : List (String × String)} (hall : b.putAll (h :: rest) = .ok b') :
    ∃ c, b.put h.1 h.2 = .ok c ∧ c.putAll rest = .ok b' := by
  rw [putAll, List.foldlM_cons] at hall
  exact bind_eq_ok hall

/-- What headers that are put in turn make of a block. -/
theorem putAll_eq_ok {b b' : HeaderBlock} (hb : b.encoding ≠ some .latin1)
    {headers : List (String × String)} (hall : b.putAll headers = .ok b') :
    b' = { b with fields := putFields b.fields headers } := by
  induction headers generalizing b with
  | nil =>
    cases hall
    rfl
  | cons h rest ih =>
    obtain ⟨c, hc, hrest⟩ := putAll_cons_eq_ok hall
    have hput := put_eq_ok hb hc
    rw [ih (by rw [hput]; exact hb) hrest, hput]
    rfl

theorem valuesOf_putAll_of_ne {b b' : HeaderBlock} (hb : b.encoding ≠ some .latin1)
    {headers : List (String × String)} {other : String}
    (hne : ∀ h ∈ headers, HeaderField.keyOf h.1 ≠ HeaderField.keyOf other)
    (hall : b.putAll headers = .ok b') : b'.valuesOf other = b.valuesOf other := by
  induction headers generalizing b with
  | nil =>
    cases hall
    rfl
  | cons h rest ih =>
    obtain ⟨c, hc, hrest⟩ := putAll_cons_eq_ok hall
    rw [List.forall_mem_cons] at hne
    have hcenc : c.encoding ≠ some .latin1 := by
      rw [put_eq_ok hb hc]
      exact hb
    rw [ih hcenc hne.2 hrest, valuesOf_put_of_ne hb hne.1 hc]

/-- Headers of different names that are put are the only ones of their names. -/
theorem valuesOf_putAll {b b' : HeaderBlock} (hb : b.encoding ≠ some .latin1)
    {headers : List (String × String)}
    (hn : (headers.map fun h => HeaderField.keyOf h.1).Nodup)
    (hall : b.putAll headers = .ok b') :
    ∀ h ∈ headers, b'.valuesOf h.1 = [Text.utf8String h.2] := by
  induction headers generalizing b with
  | nil => simp
  | cons h rest ih =>
    obtain ⟨c, hc, hrest⟩ := putAll_cons_eq_ok hall
    rw [List.map_cons, List.nodup_cons] at hn
    have hcenc : c.encoding ≠ some .latin1 := by
      rw [put_eq_ok hb hc]
      exact hb
    rw [List.forall_mem_cons]
    refine ⟨?_, ih hcenc hn.2 hrest⟩
    have hne : ∀ x ∈ rest, HeaderField.keyOf x.1 ≠ HeaderField.keyOf h.1 :=
      fun x hx he => hn.1 (List.mem_map.2 ⟨x, hx, he⟩)
    rw [valuesOf_putAll_of_ne hcenc hne hrest, valuesOf_put_self hb hc]

/-! ## Fields as entries -/

/-- The names of the fields are in ASCII and differ, and the entries are their names in lower case
with their values. -/
structure Lists (fields : List HeaderField) (entries : List (String × String)) : Prop where
  listed : fields.map (fun f => (f.key, f.value)) =
    entries.map fun e => (Text.utf8String e.1, Text.utf8String e.2)
  names : ∀ f ∈ fields, ∃ name : String,
    f.name = Text.utf8String name ∧ ∀ c ∈ name.toList, c.toNat < 0x80
  nodup : (entries.map (·.1)).Nodup

theorem keyOf_eq {name : String} (h : ∀ c ∈ name.toList, c.toNat < 0x80) :
    HeaderField.keyOf name = Text.utf8String (Text.lowerString name) := by
  rw [HeaderField.keyOf, Text.utf8String, Text.asciiLower_utf8 h, Text.utf8String,
    Text.lowerString, String.toList_ofList]

theorem keyOf_ne {name other : String} (h : ∀ c ∈ name.toList, c.toNat < 0x80)
    (h' : ∀ c ∈ other.toList, c.toNat < 0x80)
    (hne : Text.lowerString name ≠ Text.lowerString other) :
    HeaderField.keyOf name ≠ HeaderField.keyOf other := by
  rw [keyOf_eq h, keyOf_eq h']
  exact Text.utf8String_injective.ne hne

/-- A field is put among fields whose keys differ as a value is put among entries. -/
theorem map_putField (field : HeaderField) {fields : List HeaderField}
    (h : (fields.map (·.key)).Nodup) :
    (putField field fields).map (fun f => (f.key, f.value)) =
      Entries.put (fields.map fun f => (f.key, f.value)) field.key field.value := by
  induction fields with
  | nil => rfl
  | cons f rest ih =>
    rw [List.map_cons, List.nodup_cons] at h
    rw [putField_cons, List.map_cons, Entries.put, Entries.contains, List.any_cons,
      ← Entries.contains]
    by_cases hf : f.key = field.key
    · have hother : ∀ x ∈ rest, x.key ≠ field.key := by
        intro x hx he
        exact h.1 (List.mem_map.2 ⟨x, hx, he.trans hf.symm⟩)
      have hfilter : rest.filter (·.key != field.key) = rest :=
        List.filter_eq_self.2 fun x hx => by simpa using hother x hx
      have hmap : (rest.map fun f => (f.key, f.value)).map
          (fun e => if e.1 == field.key then (e.1, field.value) else e) =
            rest.map fun f => (f.key, f.value) := by
        rw [List.map_map]
        refine List.map_congr_left fun x hx => ?_
        simp [hother x hx]
      rw [if_pos hf, hfilter, List.map_cons]
      simp only [hf, beq_self_eq_true, Bool.true_or, if_true, List.map_cons, hmap]
    · rw [if_neg hf, List.map_cons, ih h.2, Entries.put]
      have hne : (f.key == field.key) = false := by simpa using hf
      simp only [hne, Bool.false_or]
      by_cases hc : Entries.contains (rest.map fun f => (f.key, f.value)) field.key = true
      · simp only [hc, hne, if_true, List.map_cons, Bool.false_eq_true, if_false]
      · simp only [hc, Bool.false_eq_true, if_false, List.cons_append]

namespace Lists

variable {fields : List HeaderField} {entries : List (String × String)}

theorem nodup_keys (h : Lists fields entries) : (fields.map (·.key)).Nodup := by
  have hkeys : fields.map (·.key) = (entries.map (·.1)).map Text.utf8String := by
    have := congrArg (List.map Prod.fst) h.listed
    simpa [List.map_map, Function.comp_def] using this
  rw [hkeys]
  exact h.nodup.map Text.utf8String_injective

theorem put (h : Lists fields entries) {name : String} (hn : ∀ c ∈ name.toList, c.toNat < 0x80)
    (value : String) :
    Lists (putField (.ofText (name, value)) fields)
      (Entries.put entries (Text.lowerString name) value) := by
  refine ⟨?_, ?_, Entries.nodup_put h.nodup _ _⟩
  · rw [map_putField _ h.nodup_keys, h.listed,
      Entries.map_put Text.utf8String Text.utf8String_injective, ← keyOf_eq hn]
    rfl
  · intro f hf
    rcases mem_putField hf with rfl | hf
    · exact ⟨name, rfl, hn⟩
    · exact h.names f hf

theorem putFields (h : Lists fields entries) {headers : List (String × String)}
    (hn : ∀ e ∈ headers, ∀ c ∈ e.1.toList, c.toNat < 0x80) :
    Lists (putFields fields headers) (Entries.putLower entries headers) := by
  induction headers generalizing fields entries with
  | nil => exact h
  | cons e rest ih =>
    rw [List.forall_mem_cons] at hn
    exact ih (h.put hn.1 e.2) hn.2

/-- A field for each entry. -/
theorem exists_field (h : Lists fields entries) {e : String × String} (he : e ∈ entries) :
    ∃ f ∈ fields, f.key = Text.utf8String e.1 ∧ f.value = Text.utf8String e.2 := by
  have hmem : (Text.utf8String e.1, Text.utf8String e.2) ∈
      fields.map fun f => (f.key, f.value) := by
    rw [h.listed]
    exact List.mem_map.2 ⟨e, he, rfl⟩
  obtain ⟨f, hf, heq⟩ := List.mem_map.1 hmem
  exact ⟨f, hf, (Prod.mk.inj heq).1, (Prod.mk.inj heq).2⟩

/-- The names of entries are in lower case. -/
theorem lowerString_eq (h : Lists fields entries) {e : String × String} (he : e ∈ entries) :
    Text.lowerString e.1 = e.1 := by
  obtain ⟨f, hf, hkey, -⟩ := h.exists_field he
  obtain ⟨name, hname, hascii⟩ := h.names f hf
  have hlower : e.1 = Text.lowerString name := by
    refine Text.utf8String_injective ?_
    rw [← hkey, HeaderField.key, hname, ← keyOf_eq hascii, HeaderField.keyOf]
  rw [hlower, Text.lowerString_idem hascii]

theorem isText (h : Lists fields entries) : IsText fields := by
  intro f hf
  obtain ⟨name, hname, -⟩ := h.names f hf
  have hmem : (f.key, f.value) ∈ entries.map fun e =>
      (Text.utf8String e.1, Text.utf8String e.2) := by
    rw [← h.listed]
    exact List.mem_map.2 ⟨f, hf, rfl⟩
  obtain ⟨e, -, heq⟩ := List.mem_map.1 hmem
  refine ⟨(name, e.2), ?_⟩
  rw [HeaderField.ofText, ← hname, (Prod.mk.inj heq).2]

/-- The names and the values of the entries are read in the encoding of the block. -/
theorem decode?_encodingOf (h : Lists fields entries) {b : HeaderBlock} (hb : b = ⟨fields, none⟩)
    {e : String × String} (he : e ∈ entries) :
    b.encodingOf.decode? (Text.utf8String e.1) = some e.1.toList ∧
      b.encodingOf.decode? (Text.utf8String e.2) = some e.2.toList := by
  subst hb
  obtain ⟨f, hf, hkey, hvalue⟩ := h.exists_field he
  obtain ⟨name, hname, hascii⟩ := h.names f hf
  have hne : encodingOf ⟨fields, none⟩ ≠ .latin1 := IsText.encodingOf_ne h.isText (by simp)
  cases ha : readableIn .ascii ⟨fields, none⟩ with
  | true =>
    have henc : encodingOf ⟨fields, none⟩ = .ascii := by simp [encodingOf, ha]
    rw [readableIn, List.all_eq_true] at ha
    have hread := ha f hf
    rw [Bool.and_eq_true, hvalue, HeaderEncoding.decode?_ascii] at hread
    rw [henc, HeaderEncoding.decode?_ascii, HeaderEncoding.decode?_ascii, if_pos, if_pos]
    · exact ⟨rfl, rfl⟩
    · by_contra hall
      rw [if_neg hall] at hread
      exact absurd hread.2 (by decide)
    · rw [← hkey, HeaderField.key, hname, List.all_eq_true]
      intro b hb
      exact decide_eq_true (Text.asciiLower_lt.2 (Text.forall_mem_utf8_lt.2 hascii) b hb)
  | false =>
    have henc : encodingOf ⟨fields, none⟩ = .utf8 := by simpa [encodingOf, ha] using hne
    rw [henc]
    exact ⟨HeaderEncoding.decode?_utf8 e.1, HeaderEncoding.decode?_utf8 e.2⟩

/-- The values of the fields of a key are those of the entries of the name. -/
theorem values_of_key (h : Lists fields entries) (name : String) :
    (fields.filter (·.key == Text.utf8String name)).map (·.value) =
      (Entries.get? entries name).toList.map Text.utf8String := by
  have hpairs : (fields.filter (·.key == Text.utf8String name)).map (·.value) =
      ((fields.map fun f => (f.key, f.value)).filter (·.1 == Text.utf8String name)).map
        (·.2) := by
    rw [List.filter_map, List.map_map]
    rfl
  have hnames : entries.filter ((fun p : Bytes × Bytes => p.1 == Text.utf8String name) ∘
      fun e => (Text.utf8String e.1, Text.utf8String e.2)) = entries.filter (·.1 == name) :=
    List.filter_congr fun e _ => by simp [Text.utf8String_injective.eq_iff]
  rw [hpairs, h.listed, List.filter_map, hnames, Entries.filter_eq_find? h.nodup, Entries.get?]
  cases entries.find? (·.1 == name) <;> rfl

/-- A block in which fields are listed is searched as its entries are. -/
theorem get?_eq_ok (h : Lists fields entries) {b : HeaderBlock} (hb : b = ⟨fields, none⟩)
    {name : String} {found : Option String} (hf : b.get? name = .ok found) :
    found = Entries.get? entries (Text.lowerString name) := by
  have hfields : b.fields = fields := by rw [hb]
  have hne : b.encodingOf ≠ .latin1 :=
    IsText.encodingOf_ne (hfields ▸ h.isText) (by simp [hb])
  unfold HeaderBlock.get? at hf
  split at hf
  · cases hf
  · rename_i key hkey
    obtain rfl : key = Text.utf8String (Text.lowerString name) := by
      rw [HeaderEncoding.encode_eq_ok hne hkey, Text.utf8String, Text.lowerString,
        String.toList_ofList]
    have hvalues : (b.fields.filter (·.key == Text.utf8String (Text.lowerString name))).map
        (fun f => (b.encodingOf.decode? f.value).getD []) =
        (Entries.get? entries (Text.lowerString name)).toList.map
          fun v => (b.encodingOf.decode? (Text.utf8String v)).getD [] := by
      have hmap := congrArg (List.map fun v => (b.encodingOf.decode? v).getD [])
        (h.values_of_key (Text.lowerString name))
      rw [hfields]
      simpa [List.map_map, Function.comp_def] using hmap
    rw [hvalues] at hf
    cases hget : Entries.get? entries (Text.lowerString name) with
    | none =>
      rw [hget] at hf
      cases hf
      rfl
    | some v =>
      obtain ⟨e, hfind, rfl⟩ := Option.map_eq_some_iff.1 hget
      have hread := (h.decode?_encodingOf hb (List.mem_of_find?_eq_some hfind)).2
      rw [hget] at hf
      cases hf
      simp [Signature.join, hread]

/-- What adds an entry for each field, as long as the names differ, collects the entries. -/
theorem foldl_eq (h : Lists fields entries)
    {step : List (String × String) → HeaderField → List (String × String)}
    (hstep : ∀ (read : List (String × String)) (f : HeaderField), ∀ e ∈ entries,
      f.key = Text.utf8String e.1 → f.value = Text.utf8String e.2 → e.1 ∉ read.map (·.1) →
        step read f = read ++ [e]) : fields.foldl step [] = entries := by
  have hfold : ∀ (items : List (String × String)) (rest : List HeaderField)
      (read : List (String × String)), (∀ e ∈ items, e ∈ entries) →
      rest.map (fun f => (f.key, f.value)) =
        items.map (fun e => (Text.utf8String e.1, Text.utf8String e.2)) →
      ((read ++ items).map (·.1)).Nodup → rest.foldl step read = read ++ items := by
    intro items
    induction items with
    | nil =>
      intro rest read _ hlisted _
      rw [List.map_nil, List.map_eq_nil_iff] at hlisted
      simp [hlisted]
    | cons e items ih =>
      intro rest read hi hlisted hn
      cases rest with
      | nil => simp at hlisted
      | cons f rest =>
        simp only [List.map_cons, List.cons.injEq, Prod.mk.injEq] at hlisted
        obtain ⟨⟨hkey, hvalue⟩, hlisted⟩ := hlisted
        have hnew : e.1 ∉ read.map (·.1) := by
          rw [List.map_append, List.map_cons, List.nodup_append] at hn
          exact fun hm => hn.2.2 e.1 hm e.1 List.mem_cons_self rfl
        have happend : read ++ e :: items = (read ++ [e]) ++ items := by simp
        rw [happend] at hn ⊢
        rw [List.foldl_cons, hstep read f e (hi e List.mem_cons_self) hkey hvalue hnew]
        exact ih rest (read ++ [e]) (fun x hx => hi x (List.mem_cons_of_mem e hx)) hlisted hn
  exact hfold entries fields [] (fun _ he => he) h.listed (by simpa using h.nodup)

/-- The entries are what is read of a block as a whole. -/
theorem toEntries_eq (h : Lists fields entries) {b : HeaderBlock} (hb : b = ⟨fields, none⟩) :
    b.toEntries = entries := by
  have hfields : b.fields = fields := by rw [hb]
  unfold toEntries
  rw [hfields]
  refine h.foldl_eq fun read f e he hkey hvalue hnew => ?_
  obtain ⟨hname, htext⟩ := h.decode?_encodingOf hb he
  have hcontains : ¬ Entries.contains read e.1 = true :=
    fun hc => hnew (Entries.contains_iff_mem.1 hc)
  have hget : Entries.get? read e.1 = none := by
    rw [← Option.not_isSome_iff_eq_none, Entries.isSome_get?]
    exact hcontains
  simp only [hkey, hvalue, hname, htext, Option.getD_some, String.ofList_toList, hget]
  rw [Entries.put, if_neg hcontains]

end Lists

/-- The field of a header that is given in ASCII. -/
def asciiField (e : String × String) : Except HeaderError HeaderField :=
  match HeaderEncoding.ascii.encode e.1.toList, HeaderEncoding.ascii.encode e.2.toList with
  | .ok name, .ok value => .ok ⟨name, value⟩
  | _, _ => .error .notEncodable

theorem ofAscii_eq (headers : List (String × String)) :
    ofAscii headers = (headers.mapM asciiField).map fun fields => ⟨fields, none⟩ := rfl

theorem asciiField_eq_ok {e : String × String} {f : HeaderField} (h : asciiField e = .ok f) :
    f = .ofText e ∧ ∀ c ∈ e.1.toList, c.toNat < 0x80 := by
  unfold asciiField at h
  split at h
  · rename_i name value hn hv
    cases h
    rw [HeaderEncoding.encode_eq_ok (by decide) hn, HeaderEncoding.encode_eq_ok (by decide) hv]
    refine ⟨rfl, ?_⟩
    rw [HeaderEncoding.encode] at hn
    split at hn
    · rename_i ha
      simpa [Text.isAscii] using ha
    · cases hn
  · cases h

theorem mapM_asciiField_eq_ok {headers : List (String × String)} {fields : List HeaderField}
    (h : headers.mapM asciiField = .ok fields) :
    fields = headers.map .ofText ∧ ∀ e ∈ headers, ∀ c ∈ e.1.toList, c.toNat < 0x80 := by
  induction headers generalizing fields with
  | nil =>
    cases h
    exact ⟨rfl, by simp⟩
  | cons e rest ih =>
    rw [List.mapM_cons] at h
    obtain ⟨f, hf, h⟩ := bind_eq_ok h
    obtain ⟨more, hmore, h⟩ := bind_eq_ok h
    cases h
    obtain ⟨rfl, hascii⟩ := asciiField_eq_ok hf
    obtain ⟨rfl, hrest⟩ := ih hmore
    exact ⟨rfl, List.forall_mem_cons.2 ⟨hascii, hrest⟩⟩

/-- A block that is given in ASCII has a field for each header. -/
theorem ofAscii_eq_ok {headers : List (String × String)} {b : HeaderBlock}
    (h : ofAscii headers = .ok b) :
    b = ⟨headers.map .ofText, none⟩ ∧ ∀ e ∈ headers, ∀ c ∈ e.1.toList, c.toNat < 0x80 := by
  rw [ofAscii_eq] at h
  cases hm : headers.mapM asciiField with
  | error e =>
    rw [hm] at h
    cases h
  | ok fields =>
    rw [hm] at h
    cases h
    obtain ⟨rfl, hascii⟩ := mapM_asciiField_eq_ok hm
    exact ⟨rfl, hascii⟩

/-- Under names that differ it lists them. -/
theorem lists_of_ofAscii {headers : List (String × String)} {b : HeaderBlock}
    (h : ofAscii headers = .ok b) (hn : (headers.map fun e => Text.lowerString e.1).Nodup) :
    Lists b.fields (headers.map fun e => (Text.lowerString e.1, e.2)) := by
  obtain ⟨rfl, hascii⟩ := ofAscii_eq_ok h
  refine ⟨?_, ?_, by simpa [List.map_map, Function.comp_def] using hn⟩
  · rw [List.map_map, List.map_map]
    refine List.map_congr_left fun e he => ?_
    simp [keyOf_eq (hascii e he)]
  · intro f hf
    obtain ⟨e, he, rfl⟩ := List.mem_map.1 hf
    exact ⟨e.1, rfl, hascii e he⟩

end HeaderBlock
end WebhookDelivery
