import Bindery.Json.Value
import Bindery.Proofs.Json.Number
import Bindery.Proofs.Json.Text

namespace Bindery.Json

variable {α β δ : Type}

/-! Readers that take the compact text of a value back to what it was written for. -/

/-- What can stand behind a value in a compact text: nothing, or what ends it there. -/
def endsValue (rest : List Char) : Prop :=
  ∀ c ∈ rest.head?, c = ',' ∨ c = ']' ∨ c = closeBrace

/-- The value is read up to its end as the record it was written for. -/
def Reads (read : Reader α) (value : Value) (record : α) : Prop :=
  ∀ rest, endsValue rest → read (value.compact ++ rest) = .ok (record, rest)

theorem endsValue.endsNumber {rest : List Char} (hrest : endsValue rest) : endsNumber rest := by
  intro c hc
  obtain rfl | rfl | rfl := hrest c hc <;> decide

theorem endsValue_comma (text : List Char) : endsValue (',' :: text) :=
  fun _ hc => .inl (Option.some.inj hc).symm

theorem endsValue_bracket (text : List Char) : endsValue (']' :: text) :=
  fun _ hc => .inr (.inl (Option.some.inj hc).symm)

theorem endsValue_brace (text : List Char) : endsValue (closeBrace :: text) :=
  fun _ hc => .inr (.inr (Option.some.inj hc).symm)

theorem endsValue_compactElements (values : List Value) (rest : List Char) :
    endsValue (Value.compactElements values ++ rest) := by
  cases values with
  | nil => exact endsValue_bracket rest
  | cons value values => exact endsValue_comma _

theorem endsValue_compactMembers (members : List (String × Value)) (rest : List Char) :
    endsValue (Value.compactMembers members ++ rest) := by
  cases members with
  | nil => exact endsValue_brace rest
  | cons entry members => exact endsValue_comma _

theorem quotedText_append (text : String) (rest : List Char) :
    quotedText text ++ rest = '"' :: (text.toList.flatMap escapedChar ++ '"' :: rest) := by
  simp [quotedText]

theorem readText_reads (text : String) : Reads readText (.text text) text := by
  intro rest _
  have hchars := readChars_flatMap text.toList rest
  rw [Value.compact, quotedText_append, readText, skipSpace_cons (by decide)]
  simp only [hchars, ok_bind, String.ofList_toList]
  rfl

theorem readTextOrNull_reads (text : String) :
    Reads readTextOrNull (.text text) (some text) := by
  intro rest hrest
  have hread := readText_reads text rest hrest
  obtain ⟨letters, hletters⟩ : ∃ letters, (Value.text text).compact ++ rest = '"' :: letters :=
    ⟨_, rfl⟩
  rw [hletters] at hread ⊢
  rw [readTextOrNull, skipSpace_cons (by decide)]
  change (readText ('"' :: letters) >>= fun result => .ok (some result.1, result.2)) = _
  rw [hread]
  rfl

theorem readWord_reads (number : UInt32) : Reads readWord (.number number.toNat) number :=
  fun _ hrest => readWord_toDigits number hrest.endsNumber

/-- A value begins with its own text. -/
theorem Value.exists_compact_cons (value : Value) :
    ∃ c text, value.compact = c :: text ∧ isSpace c = false ∧ c ≠ ']' := by
  cases value with
  | number value =>
      obtain ⟨c, digits, hdigits, hc⟩ := exists_toDigits_cons value
      refine ⟨c, digits, by rw [compact, hdigits], isSpace_of_isDigit hc, ?_⟩
      rintro rfl
      contradiction
  | text value => exact ⟨'"', _, by rw [compact, quotedText]; rfl, by decide, by decide⟩
  | array values =>
      cases values with
      | nil => exact ⟨'[', _, by rw [compact], by decide, by decide⟩
      | cons value values => exact ⟨'[', _, by rw [compact]; rfl, by decide, by decide⟩
  | object members =>
      cases members with
      | nil => exact ⟨openBrace, _, by rw [compact], by decide, by decide⟩
      | cons entry members => exact ⟨openBrace, _, by rw [compact]; rfl, by decide, by decide⟩

/-! Lists. -/

theorem nextElement?_first (value : Value) (rest : List Char) :
    nextElement? true (value.compact ++ rest) = .ok (some (value.compact ++ rest)) := by
  obtain ⟨c, text, htext, hspace, hclose⟩ := value.exists_compact_cons
  rw [htext, List.cons_append, nextElement?, skipSpace_cons hspace]
  simp

theorem nextElement?_later (value : Value) (rest : List Char) :
    nextElement? false (',' :: (value.compact ++ rest)) = .ok (some (value.compact ++ rest)) := by
  obtain ⟨c, text, htext, hspace, hclose⟩ := value.exists_compact_cons
  rw [htext, List.cons_append, nextElement?, skipSpace_cons (by decide)]
  simp [skipSpace_cons hspace, hclose]

section Elements

variable {read : Reader α} {value : α → Value}

theorem readElements_reads {items : List α} (hitems : ∀ item ∈ items, Reads read (value item) item)
    (rest : List Char) {bound : Nat} (hbound : items.length < bound) :
    readElements read bound false (Value.compactElements (items.map value) ++ rest) =
      .ok (items, ']' :: rest) := by
  induction items generalizing bound with
  | nil =>
      obtain _ | bound := bound
      · contradiction
      · rfl
  | cons item items ih =>
      obtain ⟨hitem, hitems⟩ := List.forall_mem_cons.1 hitems
      obtain _ | bound := bound
      · contradiction
      have hread := hitem _ (endsValue_compactElements (items.map value) rest)
      have hlater := ih hitems (Nat.lt_of_succ_lt_succ hbound)
      have htext : Value.compactElements ((item :: items).map value) ++ rest =
          ',' :: ((value item).compact ++ (Value.compactElements (items.map value) ++ rest)) := by
        simp [Value.compactElements]
      rw [htext, readElements, nextElement?_later]
      simp only [ok_bind, hread, hlater]
      rfl

theorem length_lt_compactElements (values : List Value) :
    values.length < (Value.compactElements values).length := by
  induction values with
  | nil => simp [Value.compactElements]
  | cons value values ih =>
      simp only [Value.compactElements, List.length_cons, List.length_append]
      omega

theorem readList_reads {items : List α} (hitems : ∀ item ∈ items, Reads read (value item) item) :
    Reads (readList read) (.array (items.map value)) items := by
  intro rest _
  cases items with
  | nil => rfl
  | cons item items =>
      obtain ⟨hitem, hitems⟩ := List.forall_mem_cons.1 hitems
      have hlength := length_lt_compactElements (items.map value)
      have hread := hitem _ (endsValue_compactElements (items.map value) rest)
      have htext : (Value.array ((item :: items).map value)).compact ++ rest =
          '[' :: ((value item).compact ++ (Value.compactElements (items.map value) ++ rest)) := by
        simp [Value.compact]
      rw [htext, readList, skipSpace_cons (by decide)]
      simp only
      rw [readElements, nextElement?_first]
      simp only [ok_bind, hread]
      rw [readElements_reads hitems]
      · rfl
      · simp only [List.length_map, List.length_append] at hlength ⊢
        omega

end Elements

/-! Records. -/

theorem Reads.field {read : Reader β} {value : Value} {content : β}
    (hread : Reads read value content) (key : String) (hasDefault : Bool) (get : δ → Option β)
    (set : δ → β → δ) (draft : δ) :
    Reads ((RecordField.of key hasDefault read get set).read draft) value (set draft content) := by
  intro rest hrest
  change (read (value.compact ++ rest) >>= fun result => .ok (set draft result.1, result.2)) = _
  rw [hread rest hrest]
  rfl

/-- Members that are read one after the other, each into a field that was not read yet. -/
inductive Shape.Fills (shape : Shape δ α) : δ → List (String × Value) → δ → Prop
  | nil (draft : δ) : shape.Fills draft [] draft
  | cons {draft middle later : δ} {key : String} {value : Value} {members : List (String × Value)}
      {field : RecordField δ} (hfield : shape.field? key = some field)
      (hunread : field.isRead draft = false) (hread : Reads (field.read draft) value middle)
      (hmembers : shape.Fills middle members later) :
      shape.Fills draft ((key, value) :: members) later

theorem nextKey?_first (key : String) (rest : List Char) :
    nextKey? true (quotedText key ++ rest) = .ok (some (key, rest)) := by
  have hchars := readChars_flatMap key.toList rest
  rw [quotedText_append, nextKey?, skipSpace_cons (by decide)]
  change (readChars _ >>= fun result => .ok (some (String.ofList result.1, result.2))) = _
  rw [hchars, ok_bind]
  simp only [String.ofList_toList]

theorem nextKey?_later (key : String) (rest : List Char) :
    nextKey? false (',' :: (quotedText key ++ rest)) = .ok (some (key, rest)) := by
  have hchars := readChars_flatMap key.toList rest
  rw [quotedText_append, nextKey?, skipSpace_cons (by decide)]
  change (readChars _ >>= fun result => .ok (some (String.ofList result.1, result.2))) = _
  rw [hchars, ok_bind]
  simp only [String.ofList_toList]

section Members

variable {shape : Shape δ α}

/-- One member of an object, wherever its key is found. -/
theorem Shape.readMembers_cons {draft middle : δ} {key : String} {value : Value}
    {field : RecordField δ} (hfield : shape.field? key = some field)
    (hunread : field.isRead draft = false) (hread : Reads (field.read draft) value middle)
    {isFirst : Bool} {text behind : List Char} (hbehind : endsValue behind)
    (hkey : nextKey? isFirst text = .ok (some (key, ':' :: (value.compact ++ behind))))
    (bound : Nat) :
    shape.readMembers (bound + 1) isFirst draft text =
      shape.readMembers bound false middle behind := by
  have hcolon : skipColon (':' :: (value.compact ++ behind)) = .ok (value.compact ++ behind) := rfl
  rw [Shape.readMembers, hkey, ok_bind]
  simp only [hfield, hunread, hcolon, ok_bind, hread behind hbehind, Bool.false_eq_true, if_false]

theorem Shape.Fills.readMembers {draft later : δ} {members : List (String × Value)}
    (hfills : shape.Fills draft members later) (rest : List Char) {bound : Nat}
    (hbound : members.length < bound) :
    shape.readMembers bound false draft (Value.compactMembers members ++ rest) =
      .ok (later, closeBrace :: rest) := by
  induction hfills generalizing bound with
  | nil draft =>
      obtain _ | bound := bound
      · contradiction
      · rfl
  | @cons draft middle later key value members field hfield hunread hread hmembers ih =>
      obtain _ | bound := bound
      · contradiction
      have htext : Value.compactMembers ((key, value) :: members) ++ rest =
          ',' :: (quotedText key ++
            ':' :: (value.compact ++ (Value.compactMembers members ++ rest))) := by
        simp [Value.compactMembers]
      have hbehind := endsValue_compactMembers members rest
      rw [htext, Shape.readMembers_cons hfield hunread hread hbehind (nextKey?_later key _)]
      exact ih (Nat.lt_of_succ_lt_succ hbound)

theorem length_lt_compactMembers (members : List (String × Value)) :
    members.length < (Value.compactMembers members).length := by
  induction members with
  | nil => simp [Value.compactMembers]
  | cons entry members ih =>
      obtain ⟨key, value⟩ := entry
      simp only [Value.compactMembers, List.length_cons, List.length_append]
      omega

/-- An object is read as the record that its members fill the fields of. -/
theorem Shape.reads_object (shape : Shape δ α) (draft : δ) {members : List (String × Value)}
    {record : α} (hfills : shape.Fills shape.blank members draft)
    (hfinish : shape.finish draft = .ok record) : Reads shape.read (.object members) record := by
  intro rest _
  have hopen (text : List Char) : shape.read (openBrace :: text) =
      shape.readMembers (text.length + 1) true shape.blank text >>= fun result =>
        closeObject result.2 >>= shape.complete result.1 := rfl
  have hclose : closeObject (closeBrace :: rest) = .ok rest := rfl
  have hcomplete : shape.complete draft rest = .ok (record, rest) := by
    rw [Shape.complete, hfinish]
  suffices hmembers : ∃ text, (Value.object members).compact ++ rest = openBrace :: text ∧
      shape.readMembers (text.length + 1) true shape.blank text = .ok (draft, closeBrace :: rest) by
    obtain ⟨text, htext, hread⟩ := hmembers
    rw [htext, hopen, hread, ok_bind]
    simp only [hclose, ok_bind, hcomplete]
  cases hfills with
  | nil => exact ⟨closeBrace :: rest, by simp [Value.compact], rfl⟩
  | @cons _ middle _ key value members field hfield hunread hread hmembers =>
      have hlength := length_lt_compactMembers members
      have hbehind := endsValue_compactMembers members rest
      refine ⟨quotedText key ++ ':' :: (value.compact ++ (Value.compactMembers members ++ rest)),
        by simp [Value.compact], ?_⟩
      rw [Shape.readMembers_cons hfield hunread hread hbehind (nextKey?_first key _)]
      apply hmembers.readMembers
      simp only [List.length_append, List.length_cons]
      omega

end Members

theorem readWhole_of_reads {read : Reader α} {value : Value} {record : α}
    (hread : Reads read value record) : readWhole read value.compact = .ok record := by
  have hwhole := hread [] fun c hc => by contradiction
  rw [List.append_nil] at hwhole
  rw [readWhole, hwhole]
  rfl

end Bindery.Json
