import OneTape.Proofs.Form
import OneTape.Proofs.Json.Duplicate

namespace OneTape

open Json Text

namespace Json

def NaturalText (n : Nat) (s : List Char) : Prop := n ≤ maxWord ∧ s = Nat.toDigits 10 n

def ListText {α : Type} (text : α → List Char → Prop) (xs : List α) : List Char → Prop :=
  ArrayOf (Row (fun x ↦ Padded (text x)) xs)

/-- A variant without content is a name, or an object that holds nothing under the name. -/
def NameText (name : String) (s : List Char) : Prop :=
  SpellsString name s ∨ ObjectOf (MemberOf name (· = ['n', 'u', 'l', 'l'])) s

def Record.Text {ι α : Type} (record : Record ι α) (layout : record.Layout) (x : α)
    (s : List Char) : Prop :=
  (∃ members, (fieldsOf members).Perm record.fields ∧ record.ObjectText layout x members s) ∨
    record.ArrayText layout x record.fields s

end Json

def Rule.layout : Rule.record.Layout
  | .state => SpellsString
  | .input => SpellsString
  | .next => SpellsString
  | .output => SpellsString
  | .action => fun action : Action ↦ NameText action.name

def Slot.Text : Slot → List Char → Prop
  | .filled rule => ObjectOf (MemberOf "Filled" (Rule.record.Text Rule.layout rule))
  | .vacant => NameText "Empty"

def Program.layout : Program.record.Layout := fun _ ↦ ListText Slot.Text

def Tape.layout : Tape.record.Layout := fun _ ↦ ListText SpellsString

def Config.layout : Config.record.Layout
  | .tape => SpellsString
  | .state => SpellsString
  | .head => NaturalText

namespace Json

variable {α : Type} {x : α} {s : List Char}

theorem Codec.listText_reads {item : Codec α} {text : α → List Char → Prop} {xs : List α}
    (h : ∀ x s, text x s → item.ReadsAs x s) (hs : ListText text xs s) :
    (Codec.list item).ReadsAs xs s := by
  obtain ⟨t, ht, rfl⟩ := hs
  exact list_reads ⟨t, ht.imp fun x _ _ hx ↦ hx.imp (h x), rfl⟩

theorem Choice.nameText_reads {choice : Choice α} {name : String} (write : α → String)
    (h : choice.lookup name = some (.single x)) (hs : NameText name s) :
    (Codec.mk write choice.read).ReadsAs x s := by
  obtain hs | hs := hs
  · exact reads_name write h hs
  · exact reads_null write h hs

theorem Record.text_reads {ι : Type} [DecidableEq ι] {record : Record ι α} (hl : record.Lawful)
    {layout : record.Layout} (h : ∀ i y s, layout i y s → (record.codec i).ReadsAs y s)
    (hs : record.Text layout x s) : record.toCodec.ReadsAs x s := by
  obtain ⟨members, hperm, hs⟩ | hs := hs
  · exact reads_object hl (hs.imp fun i ↦ h i _) hperm
  · exact reads_array hl (hs.imp fun i ↦ h i _)

end Json

theorem Rule.layout_reads (i : Rule.Field) (x : Rule.record.Content i) (s : List Char)
    (h : Rule.layout i x s) : (Rule.record.codec i).ReadsAs x s := by
  cases i with
  | state => exact Codec.string_reads h
  | input => exact Codec.string_reads h
  | next => exact Codec.string_reads h
  | output => exact Codec.string_reads h
  | action => exact Choice.nameText_reads _ (by cases x <;> rfl) h

theorem Slot.text_reads (slot : Slot) (s : List Char) (h : slot.Text s) :
    Slot.codec.ReadsAs slot s := by
  cases slot with
  | vacant => exact Choice.nameText_reads _ Slot.choice_vacant h
  | filled rule =>
    refine Choice.reads_holding _ Slot.choice_filled h fun t gap rest ht hgap hrest ↦ ?_
    have hread := Record.text_reads Rule.record_lawful Rule.layout_reads ht
    have hrule := hread.read_append gap rest hgap hrest
    rw [← Rule.codec] at hrule
    rw [hrule]
    rfl

theorem Program.layout_reads (i : Unit) (slots : List Slot) (s : List Char)
    (h : Program.layout i slots s) : (Program.record.codec i).ReadsAs slots s :=
  Codec.listText_reads Slot.text_reads h

theorem Tape.layout_reads (i : Unit) (cells : List String) (s : List Char)
    (h : Tape.layout i cells s) : (Tape.record.codec i).ReadsAs cells s :=
  Codec.listText_reads (fun _ _ ↦ Codec.string_reads) h

theorem Config.layout_reads (i : Config.Field) (x : Config.record.Content i) (s : List Char)
    (h : Config.layout i x s) : (Config.record.codec i).ReadsAs x s := by
  cases i with
  | tape => exact Codec.string_reads h
  | state => exact Codec.string_reads h
  | head =>
    obtain ⟨hn, rfl⟩ := h
    exact Codec.natural_reads hn

theorem Action.codec_takesValue : TakesValue Action.codec.read :=
  takesValue_choice fun name content h ↦ by simp [Action.choice] at h

theorem Rule.content_takesValue (i : Rule.Field) : TakesValue (Rule.record.codec i).read := by
  cases i with
  | state | input | next | output => exact takesValue_string
  | action => exact Action.codec_takesValue

theorem Slot.codec_takesValue : TakesValue Slot.codec.read := by
  refine takesValue_choice fun name content h ↦ ?_
  simp only [Slot.choice, List.mem_cons, Prod.mk.injEq, Variant.holding.injEq, reduceCtorEq,
    and_false, or_false, List.not_mem_nil] at h
  obtain ⟨rfl, rfl⟩ := h
  intro s slot r hread frames
  obtain ⟨⟨rule, t⟩, hrule, hslot⟩ := map_ok_iff.1 hread
  cases hslot
  exact takesValue_record Rule.content_takesValue s rule _ hrule frames

theorem Program.content_takesValue (i : Unit) : TakesValue (Program.record.codec i).read :=
  takesValue_list Slot.codec_takesValue

theorem Tape.content_takesValue (i : Unit) : TakesValue (Tape.record.codec i).read :=
  takesValue_list takesValue_string

theorem Config.content_takesValue (i : Config.Field) : TakesValue (Config.record.codec i).read := by
  cases i with
  | tape | state => exact takesValue_string
  | head => exact takesValue_natural

namespace Json

/-- The text holds `s` with white space around it, of which `after` stands behind it. -/
def Encloses (text : String) (s after : List Char) : Prop :=
  ∃ gap, IsSpaces gap ∧ IsSpaces after ∧ text.toList = gap ++ (s ++ after)

variable {ι α : Type} {text : String} {s after : List Char}

theorem Codec.decode_of_read {codec : Codec α} {result : Except Reason α}
    (hs : Encloses text s after)
    (h : ∀ gap, IsSpaces gap → codec.read (gap ++ (s ++ after)) = Record.resultAt after result) :
    codec.decode text = result.mapError fun reason ↦
      (Fault.here reason after).message text.toList := by
  obtain ⟨gap, hgap, hafter, htext⟩ := hs
  cases result with
  | ok x => simp [decode, readAll, htext, h gap hgap, Record.resultAt, skipSpace_spaces hafter,
      bind, Except.bind, pure, Except.pure, Except.mapError]
  | error f => simp [decode, readAll, htext, h gap hgap, Record.resultAt, bind, Except.bind,
      Except.mapError]

variable [DecidableEq ι] {record : Record ι α} {layout : record.Layout} {x : α}

theorem Record.decode_object (hl : record.Lawful)
    (hreads : ∀ i y s, layout i y s → (record.codec i).ReadsAs y s) {members : List (Member ι)}
    (hs : Encloses text s after) (hobject : record.ObjectText layout x members s)
    (hnd : (fieldsOf members).Nodup) : record.toCodec.decode text =
      (record.finish (record.givenOf x (fieldsOf members))).mapError fun reason ↦
        (Fault.here reason after).message text.toList :=
  Codec.decode_of_read hs fun _ hgap ↦
    read_object hgap hl (hobject.imp fun i ↦ hreads i _) hnd after

theorem Record.decode_array (hreads : ∀ i y s, layout i y s → (record.codec i).ReadsAs y s)
    {fields missing : List ι} (hfields : fields ++ missing = record.fields)
    (hs : Encloses text s after) (harray : record.ArrayText layout x fields s) :
    record.toCodec.decode text =
      (if missing.all fun i ↦ (record.default? i).isSome then
        record.finish (record.givenOf x fields)
      else .error (.tooShort fields.length record.name record.fields.length)).mapError
        fun reason ↦ (Fault.here reason after).message text.toList :=
  Codec.decode_of_read hs fun _ hgap ↦
    read_array hgap hfields (harray.imp fun i ↦ hreads i _) after

theorem Record.decode_twice (hl : record.Lawful) (h : ∀ i, TakesValue (record.codec i).read)
    {keys : List (Option String)} {i : ι}
    (hs : Padded (ObjectOf (Row MemberNamed keys)) text.toList)
    (hi : List.Duplicate (some (record.key i)) keys) :
    ∃ message, record.toCodec.decode text = .error message := by
  obtain ⟨gap, s, gap', hgap, hs, hgap', htext⟩ := hs
  obtain ⟨f, hf⟩ := read_duplicate hl h hgap hs hi gap'
  refine ⟨f.message text.toList, ?_⟩
  simp [Codec.decode, readAll, htext, toCodec, hf, bind, Except.bind, Except.mapError]

/-- What decoding comes to, in any layout, if every field is wanted. The first field that is not
given is at fault, or the array as a whole, at the place behind what the text holds. -/
structure Record.Strict (record : Record ι α) (layout : record.Layout) : Prop where
  object : ∀ x members text s after, Encloses text s after → record.ObjectText layout x members s →
    (fieldsOf members).Nodup → record.toCodec.decode text =
      match record.fields.find? (· ∉ fieldsOf members) with
      | none => .ok x
      | some i => .error ((Fault.here (.missingField (record.key i)) after).message text.toList)
  array : ∀ x n text s after, Encloses text s after →
    record.ArrayText layout x (record.fields.take n) s → record.toCodec.decode text =
      if record.fields.length ≤ n then .ok x
      else .error ((Fault.here (.tooShort n record.name record.fields.length) after).message
        text.toList)
  twice : ∀ keys i text, Padded (ObjectOf (Row MemberNamed keys)) text.toList →
    List.Duplicate (some (record.key i)) keys →
      ∃ message, record.toCodec.decode text = .error message

theorem Record.finish_strict (hd : ∀ i, record.default? i = none) (fields : List ι) :
    record.finish (record.givenOf x fields) =
      match record.fields.find? (· ∉ fields) with
      | none => .ok (record.build (record.content x))
      | some i => .error (.missingField (record.key i)) := by
  have hmissing : (fun i ↦ (record.final? (record.givenOf x fields) i).isNone) =
      fun i ↦ decide (i ∉ fields) := by
    funext i
    by_cases hi : i ∈ fields <;> simp [final?, givenOf, hd i, hi]
  cases hfind : record.fields.find? (· ∉ fields) with
  | none =>
    refine finish_of_content fun i ↦ ?_
    simpa using List.find?_eq_none.1 hfind i (record.mem_fields i)
  | some i => exact finish_missing (by rw [hmissing]; exact hfind)

theorem Record.strict_of (hl : record.Lawful) (hd : ∀ i, record.default? i = none)
    (hreads : ∀ i y s, layout i y s → (record.codec i).ReadsAs y s)
    (htakes : ∀ i, TakesValue (record.codec i).read) : record.Strict layout where
  object x members text s after hs hobject hnd := by
    rw [decode_object hl hreads hs hobject hnd, finish_strict hd, hl.build_content]
    cases record.fields.find? (· ∉ fieldsOf members) <;> rfl
  array x n text s after hs harray := by
    rw [decode_array hreads (List.take_append_drop n record.fields) hs harray]
    by_cases hn : record.fields.length ≤ n
    · rw [if_pos hn, List.drop_eq_nil_of_le hn, List.take_of_length_le hn,
        finish_of_content record.mem_fields, hl.build_content]
      rfl
    · have hlength : (record.fields.take n).length = n := List.length_take_of_le (by omega)
      have hmissing : ((record.fields.drop n).all fun i ↦ (record.default? i).isSome) = false := by
        obtain ⟨i, missing, heq⟩ := List.exists_cons_of_ne_nil
          (fun h ↦ hn (List.drop_eq_nil_iff.1 h))
        rw [heq, List.all_cons, hd i]
        rfl
      rw [if_neg hn, hmissing, hlength]
      rfl
  twice keys i text hs hi := decode_twice hl htakes hs hi

end Json

theorem Rule.strict : Rule.record.Strict Rule.layout :=
  Record.strict_of Rule.record_lawful (fun _ ↦ rfl) Rule.layout_reads Rule.content_takesValue

theorem Program.strict : Program.record.Strict Program.layout :=
  Record.strict_of Program.record_lawful (fun _ ↦ rfl) Program.layout_reads
    Program.content_takesValue

theorem Tape.strict : Tape.record.Strict Tape.layout :=
  Record.strict_of Tape.record_lawful (fun _ ↦ rfl) Tape.layout_reads Tape.content_takesValue

def Config.filled (config : Config) (given : List Config.Field) : Config where
  tape := if .tape ∈ given then config.tape else standard.tape
  state := if .state ∈ given then config.state else standard.state
  head := if .head ∈ given then config.head else standard.head

theorem Config.finish_givenOf (config : Config) (given : List Config.Field) :
    Config.record.finish (Config.record.givenOf config given) = .ok (config.filled given) := by
  have hcontent : ∀ i, Config.record.final? (Config.record.givenOf config given) i =
      some (Config.record.content (config.filled given) i) := by
    intro i
    by_cases hi : i ∈ given <;> cases i <;>
      simp [Record.final?, Record.givenOf, hi, Config.record, Config.content, Config.filled] <;> rfl
  rw [Record.finish_of_final hcontent, Config.record_lawful.build_content]

/-- Decoding does not depend on the layout. Rules, programs and tapes need all their fields, and a
configuration is filled from the standard one. No key of a field may be given twice. -/
theorem decode_any_layout :
    (Rule.record.Strict Rule.layout ∧ Program.record.Strict Program.layout ∧
      Tape.record.Strict Tape.layout) ∧
    (∀ config members text s after, Encloses text s after →
      Config.record.ObjectText Config.layout config members s → (fieldsOf members).Nodup →
      Config.ofJson text = .ok (config.filled (fieldsOf members))) ∧
    (∀ config n text s after, Encloses text s after →
      Config.record.ArrayText Config.layout config (Config.record.fields.take n) s →
      Config.ofJson text = .ok (config.filled (Config.record.fields.take n))) ∧
    ∀ keys i text, Padded (ObjectOf (Row MemberNamed keys)) text.toList →
      List.Duplicate (some (Config.record.key i)) keys →
      ∃ reason, Config.ofJson text = .error (.badConfig reason) := by
  refine ⟨⟨Rule.strict, Program.strict, Tape.strict⟩, fun config members text s after hs h hnd ↦ ?_,
    fun config n text s after hs h ↦ ?_, fun keys i text hs hi ↦ ?_⟩
  · have hdecode := Record.decode_object Config.record_lawful Config.layout_reads hs h hnd
    rw [Config.finish_givenOf] at hdecode
    rw [Config.ofJson, Config.codec, hdecode]
    rfl
  · have hdecode := Record.decode_array Config.layout_reads
      (List.take_append_drop n Config.record.fields) hs h
    have hdefault : ((Config.record.fields.drop n).all fun i ↦
        (Config.record.default? i).isSome) = true := List.all_eq_true.2 fun _ _ ↦ rfl
    rw [hdefault, if_pos rfl, Config.finish_givenOf] at hdecode
    rw [Config.ofJson, Config.codec, hdecode]
    rfl
  · obtain ⟨reason, hreason⟩ :=
      Record.decode_twice Config.record_lawful Config.content_takesValue hs hi
    refine ⟨reason, ?_⟩
    rw [Config.ofJson, Config.codec, hreason]
    rfl

/-- A configuration behind a line feed that gives only its head, with an escape in the key, behind
an object without a meaning and a number beyond all doubles. A rule that lacks its state, a tape
without cells, and a head that is given twice. -/
theorem decode_any_layout_escaped :
    Config.ofJson "\n\x7b\"x\":[\x7b\"\\ud800\":-1.5E+999\x7d],\"\\u0068ead\":2 \x7d" =
      .ok ⟨"b,b,b,b,1,1,1,b,b", "Q0", 2⟩ ∧
    Rule.codec.decode "\x7b\"input\":\"1\", \"state\":null\x7d" =
      .error "missing field `current_state` at line 1 column 27" ∧
    Tape.codec.decode "[]" =
      .error "invalid length 0, expected struct Tape with 1 element at line 1 column 2" ∧
    ∃ reason, Config.ofJson "\x7b\"head\":1,\"\\u0068ead\":null\x7d" =
      .error (.badConfig reason) := by
  have hnil := isSpaces_nil
  have hplain (c : Char) (h : 0x20 ≤ c.toNat ∧ c ≠ '"' ∧ c ≠ '\\') : SpellsChar c [c] :=
    .plain h.1 h.2.1 h.2.2
  have hhead : SpellsString "head" "\"\\u0068ead\"".toList := by
    have hunit : IsUnit 'h'.toNat ['0', '0', '6', '8'] :=
      .mk (show IsHex '0' 0 by decide) (show IsHex '0' 0 by decide) (show IsHex '6' 6 by decide)
        (show IsHex '8' 8 by decide)
    exact ⟨_, .cons (.unit hunit) (.cons (hplain 'e' (by decide)) (.cons (hplain 'a' (by decide))
      (.cons (hplain 'd' (by decide)) .nil))), by decide⟩
  obtain ⟨⟨hrule, -, htape⟩, hobject, -, htwice⟩ := decode_any_layout
  refine ⟨?_, ?_, ?_, ?_⟩
  · have hunit : IsStringPart "\\ud800".toList :=
      .unit (.mk (show IsHex 'd' 13 by decide) (show IsHex '8' 8 by decide)
        (show IsHex '0' 0 by decide) (show IsHex '0' 0 by decide))
    have hstring : IsString "\"\\ud800\"".toList := ⟨[_], by simpa using hunit, by decide⟩
    have hnumber : IsNumber "-1.5E+999".toList :=
      ⟨['-'], by decide, ['1'], ['.', '5'], ['E', '+', '9', '9', '9'], by decide,
        .inr ⟨['5'], by decide, rfl⟩, .inr ⟨'E', by decide, ['+'], by decide, ['9', '9', '9'],
          by decide, rfl⟩, by decide⟩
    have hvalue : IsPiece .value "[\x7b\"\\ud800\":-1.5E+999\x7d]".toList :=
      .array (.lastElement (.element hnil (.object (.lastMember (.member hnil hstring hnil
        (.element hnil (.number hnumber) hnil)))) hnil))
    have hother : MemberOf "x" (IsPiece .value) "\"x\":[\x7b\"\\ud800\":-1.5E+999\x7d]".toList :=
      ⟨[], _, [], _, hnil, spellsString_writeString "x", hnil, padded_self hvalue, rfl⟩
    have hgiven : MemberOf "head" (NaturalText 2) "\"\\u0068ead\":2 ".toList :=
      ⟨[], _, [], ['2', ' '], hnil, hhead, hnil,
        ⟨[], ['2'], [' '], hnil, ⟨by decide, by decide⟩, by decide, rfl⟩, rfl⟩
    have hmembers : Config.record.ObjectText Config.layout ⟨"", "", 2⟩ [.other "x", .field .head]
        "\x7b\"x\":[\x7b\"\\ud800\":-1.5E+999\x7d],\"\\u0068ead\":2 \x7d".toList :=
      ⟨_, .more ⟨fun i ↦ by cases i <;> decide, hother⟩ (.last hgiven), rfl⟩
    exact hobject ⟨"", "", 2⟩ _ _ _ [] ⟨['\n'], by decide, hnil, rfl⟩ hmembers (by decide)
  · have hgiven : MemberOf "input" (SpellsString "1") "\"input\":\"1\"".toList :=
      ⟨[], _, [], _, hnil, spellsString_writeString "input", hnil,
        padded_self (spellsString_writeString "1"), rfl⟩
    have hother : MemberOf "state" (IsPiece .value) " \"state\":null".toList :=
      ⟨[' '], _, [], _, by decide, spellsString_writeString "state", hnil, padded_self .null, rfl⟩
    have hmembers : Rule.record.ObjectText Rule.layout ⟨"", "1", "", "", .left⟩
        [.field .input, .other "state"] "\x7b\"input\":\"1\", \"state\":null\x7d".toList :=
      ⟨_, .more hgiven (.last ⟨fun i ↦ by cases i <;> decide, hother⟩), rfl⟩
    refine (hrule.object _ _ _ _ [] ⟨[], hnil, hnil, rfl⟩ hmembers (by decide)).trans ?_
    decide +kernel
  · refine (htape.array ⟨[]⟩ 0 "[]" "[]".toList [] ⟨[], hnil, hnil, rfl⟩
      ⟨_, .empty hnil, rfl⟩).trans ?_
    decide +kernel
  · have hone : IsNumber "1".toList :=
      ⟨[], by decide, ['1'], [], [], by decide, .inl rfl, .inl rfl, rfl⟩
    have hfirst : MemberOf "head" (IsPiece .value) "\"head\":1".toList :=
      ⟨[], _, [], _, hnil, spellsString_writeString "head", hnil, padded_self (.number hone), rfl⟩
    have hsecond : MemberOf "head" (IsPiece .value) "\"\\u0068ead\":null".toList :=
      ⟨[], _, [], _, hnil, hhead, hnil, padded_self .null, rfl⟩
    have hmembers : ObjectOf (Row MemberNamed [some "head", some "head"])
        "\x7b\"head\":1,\"\\u0068ead\":null\x7d".toList :=
      ⟨_, .more hfirst (.last hsecond), rfl⟩
    exact htwice _ .head _ (padded_self hmembers) (.cons_mem List.mem_cons_self)

end OneTape
