import IntegerSortLci.Foundations.JsonText
import IntegerSortLci.Runtime.ProfileWriter

/-!
# Profile rows are JSON objects, one a line

`json_escape` with the stream it writes to and its formatting state, the text of
one row as the object of its members, and what a reader of JSON takes from the
rows: the name of the profile comes back byte for byte.
-/

namespace IntegerSortLci.Runtime

open Foundations

set_option autoImplicit false

/-- A `std::ostringstream` with its formatting state. -/
structure TextStream where
  text : List Byte := []
  base : Nat := 10
  width : Nat := 0
  fill : Byte := 32

namespace TextStream

/-- A formatted insertion: padded on the left to the width, which goes back to 0. -/
def insert (stream : TextStream) (bytes : List Byte) : TextStream :=
  { stream with
    text := stream.text ++ (List.replicate (stream.width - bytes.length) stream.fill ++ bytes)
    width := 0 }

def insertUnsigned (stream : TextStream) (value : Nat) : TextStream :=
  stream.insert ((Nat.toDigits stream.base value).map fun digit => UInt8.ofNat digit.toNat)

/-- The body of the loop of `json_escape`. -/
def escape (escaped : TextStream) (character : Byte) : TextStream :=
  if character = 34 then escaped.insert (ascii "\\\"")
  else if character = 92 then escaped.insert (ascii "\\\\")
  else if character = 8 then escaped.insert (ascii "\\b")
  else if character = 12 then escaped.insert (ascii "\\f")
  else if character = 10 then escaped.insert (ascii "\\n")
  else if character = 13 then escaped.insert (ascii "\\r")
  else if character = 9 then escaped.insert (ascii "\\t")
  else if character < 32 then
    let hex := { escaped.insert (ascii "\\u") with base := 16, width := 4, fill := 48 }
    { hex.insertUnsigned character.toNat with base := 10 }
  else escaped.insert [character]

end TextStream

/-- `json_escape` on its stream. -/
def jsonEscapeStream (value : List Byte) : List Byte :=
  (value.foldl TextStream.escape {}).text

section Escaping

/-- Four digits, as the stream pads them. -/
theorem control_digits (character : Byte) (control : character < 32) :
    List.replicate (4 - (Nat.toDigits 16 character.toNat).length) 48 ++
      (Nat.toDigits 16 character.toNat).map (fun digit => UInt8.ofNat digit.toNat) =
        hexWord character.toNat := by
  have all : ∀ value < 32, List.replicate (4 - (Nat.toDigits 16 value).length) (48 : Byte) ++
      (Nat.toDigits 16 value).map (fun digit => UInt8.ofNat digit.toNat) = hexWord value := by
    decide
  exact all character.toNat control

/-- An insertion at width 0 appends its bytes. -/
theorem insert_ready {stream : TextStream} (ready : stream.width = 0) (bytes : List Byte) :
    stream.insert bytes = { stream with text := stream.text ++ bytes } := by
  unfold TextStream.insert
  rw [ready, Nat.zero_sub, List.replicate_zero, List.nil_append]

/-- No formatting state of one character reaches the next one: base and width are
back, and the fill is not used at width 0. -/
theorem escape_ready {stream : TextStream} (base : stream.base = 10) (width : stream.width = 0)
    (character : Byte) :
    (stream.escape character).text = stream.text ++ escapeByte character ∧
      (stream.escape character).base = 10 ∧ (stream.escape character).width = 0 := by
  unfold TextStream.escape escapeByte
  simp only [insert_ready width]
  split_ifs with quote slash b f n r t control
  all_goals try exact ⟨rfl, base, width⟩
  refine ⟨?_, rfl, rfl⟩
  simp only [TextStream.insertUnsigned, TextStream.insert, List.length_map, List.append_assoc,
    control_digits character control]

theorem json_escape_stream (value : List Byte) : jsonEscapeStream value = jsonEscape value := by
  have run : ∀ stream : TextStream, stream.base = 10 → stream.width = 0 →
      (value.foldl TextStream.escape stream).text = stream.text ++ jsonEscape value := by
    induction value with
    | nil =>
        intro stream _ _
        exact (List.append_nil _).symm
    | cons character value ih =>
        intro stream base width
        obtain ⟨text, base, width⟩ := escape_ready base width character
        rw [List.foldl_cons, ih _ base width, text, List.append_assoc]
        rfl
  exact run {} rfl rfl

/-- The four digits of a control character are read back. -/
theorem control_word (character : Byte) (control : character < 32) :
    Json.Encodes (ascii "\\u" ++ hexWord character.toNat) [character] := by
  have unit : ∀ value < 32, Json.codeUnit (hexDigit (value / 4096 % 16))
      (hexDigit (value / 256 % 16)) (hexDigit (value / 16 % 16)) (hexDigit (value % 16)) =
        some value := by
    decide
  have content : ∀ value < 32, Json.utf8 value = [UInt8.ofNat value] := by decide
  have range : character.toNat < 32 := control
  have encodes := Json.Encodes.unicode (unit character.toNat range) (by omega)
  rw [content character.toNat range, UInt8.ofNat_toNat] at encodes
  exact encodes

/-- What is written for a byte stands for that byte. -/
theorem escape_byte_encodes (character : Byte) :
    Json.Encodes (escapeByte character) [character] := by
  unfold escapeByte
  split_ifs with quote slash b f n r t control
  · subst quote
    exact .short (by decide) rfl
  · subst slash
    exact .short (by decide) rfl
  · subst b
    exact .short (by decide) rfl
  · subst f
    exact .short (by decide) rfl
  · subst n
    exact .short (by decide) rfl
  · subst r
    exact .short (by decide) rfl
  · subst t
    exact .short (by decide) rfl
  · exact control_word character control
  · exact .plain ⟨quote, slash, control⟩

theorem json_escape_encodes (value : List Byte) : Json.Encodes (jsonEscape value) value :=
  .flatMap escape_byte_encodes value

end Escaping

section Decimals

/-- A decimal digit fits into a byte. -/
theorem digit_byte {value : Nat} {digit : Char} (inside : digit ∈ Nat.toDigits 10 value) :
    (UInt8.ofNat digit.toNat).toNat = digit.toNat ∧ 48 ≤ digit.toNat ∧ digit.toNat ≤ 57 := by
  have range := Nat.isDigit_of_mem_toDigits (by decide) (by decide) inside
  obtain ⟨low, high⟩ : 48 ≤ digit.toNat ∧ digit.toNat ≤ 57 := by
    simpa [Char.isDigit, UInt32.le_iff_toNat_le] using range
  exact ⟨UInt8.toNat_ofNat_of_lt' (Nat.lt_of_le_of_lt high (by decide)), low, high⟩

theorem decimal_digits (value : Nat) : ∀ byte ∈ decimal value, Json.isDigit byte = true := by
  intro byte member
  obtain ⟨digit, inside, rfl⟩ := List.mem_map.mp member
  obtain ⟨same, low, high⟩ := digit_byte inside
  simp [Json.isDigit, UInt8.le_iff_toNat_le, same, low, high]

theorem decimal_nonempty (value : Nat) : decimal value ≠ [] := by
  intro empty
  exact Nat.toDigits_ne_nil (List.map_eq_nil_iff.mp empty)

/-- The last digit, behind those of the tenth. -/
theorem decimal_step {value : Nat} (large : 10 ≤ value) :
    decimal value = decimal (value / 10) ++ [UInt8.ofNat (value % 10).digitChar.toNat] := by
  unfold decimal
  rw [Nat.toDigits_of_base_le (by decide) large, List.map_append, List.map_singleton]

/-- Only 0 is written with a leading zero. -/
theorem decimal_leading (value : Nat) (positive : 0 < value) :
    (decimal value).head? ≠ some 48 := by
  induction value using Nat.strong_induction_on with
  | _ value ih =>
      by_cases large : 10 ≤ value
      · have earlier := ih (value / 10) (Nat.div_lt_self positive (by decide))
          (Nat.div_pos large (by decide))
        rw [decimal_step large, List.head?_append_of_ne_nil _ (decimal_nonempty _)]
        exact earlier
      · have all : ∀ digit < 10, 0 < digit → (decimal digit).head? ≠ some 48 := by decide
        exact all value (by omega) positive

theorem decimal_whole (value : Nat) : Json.isWhole (decimal value) = true := by
  by_cases zero : value = 0
  · subst zero
    decide
  · have leading := decimal_leading value (Nat.pos_of_ne_zero zero)
    have digits := decimal_digits value
    simp only [Json.isWhole, Bool.or_eq_true, Bool.and_eq_true, decide_eq_true_eq, List.all_eq_true]
    exact .inr ⟨⟨leading, decimal_nonempty value⟩, digits⟩

/-- The value is read back from the digits. -/
theorem decimal_value (value : Nat) :
    Nat.ofDigitChars 10 ((decimal value).map fun byte => Char.ofNat byte.toNat) 0 = value := by
  have digits :
      (decimal value).map (fun byte => Char.ofNat byte.toNat) = Nat.toDigits 10 value := by
    unfold decimal
    rw [List.map_map]
    refine (List.map_congr_left ?_).trans (List.map_id _)
    intro digit inside
    simp only [Function.comp_apply, (digit_byte inside).1, Char.ofNat_toNat, id]
  rw [digits, Nat.ofDigitChars_ten_toDigits]

theorem decimal_injective : Function.Injective decimal := by
  intro first second same
  rw [← decimal_value first, same, decimal_value]

end Decimals

section Rows

variable {Worker : Type} {profile : AmProfile Worker} {rank : Nat} {inScope : List Byte}

/-- A string with its quotes. -/
def quoted (text : List Byte) : List Byte := 34 :: (text ++ [34])

/-- The members of a row, as `write_worker_rows` writes their names and values. -/
def rowFields (rank : Nat) (profile : AmProfile Worker) (inScope : List Byte) (operation : String)
    (values : AmOperationProfile) : List (List Byte × List Byte) :=
  [(ascii "rank", decimal rank), (ascii "phase", decimal profile.phaseSequence),
    (ascii "name", quoted (jsonEscape profile.name)), (ascii "scope", quoted inScope),
    (ascii "operation", quoted (ascii operation)), (ascii "calls", decimal values.calls),
    (ascii "records", decimal values.records), (ascii "payload_bytes", decimal values.payloadBytes),
    (ascii "elapsed_nanoseconds", decimal values.elapsedNanoseconds)]

/-- What a reader takes from those members. -/
def rowMembers (rank : Nat) (profile : AmProfile Worker) (inScope : List Byte) (operation : String)
    (values : AmOperationProfile) : List (List Byte × Json) :=
  [(ascii "rank", .number (decimal rank)), (ascii "phase", .number (decimal profile.phaseSequence)),
    (ascii "name", .string profile.name), (ascii "scope", .string inScope),
    (ascii "operation", .string (ascii operation)), (ascii "calls", .number (decimal values.calls)),
    (ascii "records", .number (decimal values.records)),
    (ascii "payload_bytes", .number (decimal values.payloadBytes)),
    (ascii "elapsed_nanoseconds", .number (decimal values.elapsedNanoseconds))]

/-- One row without its line feed. -/
def rowText (rank : Nat) (profile : AmProfile Worker) (inScope : List Byte)
    (worker : AmWorkerProfile) (entry : String × ProfileOperation) : List Byte :=
  Json.objectText (rowFields rank profile inScope entry.1 (worker entry.2))

/-- The texts between the values of a row: the end of a member, a comma and the next name. -/
theorem row_texts :
    ascii "\x7b\"rank\":" = 123 :: 34 :: (ascii "rank" ++ [34, 58]) ∧
      ascii ",\"phase\":" = 44 :: 34 :: (ascii "phase" ++ [34, 58]) ∧
      ascii ",\"name\":\"" = 44 :: 34 :: (ascii "name" ++ [34, 58, 34]) ∧
      ascii "\",\"scope\":\"" = 34 :: 44 :: 34 :: (ascii "scope" ++ [34, 58, 34]) ∧
      ascii "\",\"operation\":\"" = 34 :: 44 :: 34 :: (ascii "operation" ++ [34, 58, 34]) ∧
      ascii "\",\"calls\":" = 34 :: 44 :: 34 :: (ascii "calls" ++ [34, 58]) ∧
      ascii ",\"records\":" = 44 :: 34 :: (ascii "records" ++ [34, 58]) ∧
      ascii ",\"payload_bytes\":" = 44 :: 34 :: (ascii "payload_bytes" ++ [34, 58]) ∧
      ascii ",\"elapsed_nanoseconds\":" = 44 :: 34 :: (ascii "elapsed_nanoseconds" ++ [34, 58]) ∧
      ascii "\x7d\n" = [125, 10] := by
  decide

theorem write_worker_rows_lines (worker : AmWorkerProfile) :
    writeWorkerRows rank profile inScope worker =
      (operations.map (rowText rank profile inScope worker)).flatMap fun line => line ++ [10] := by
  obtain ⟨rankText, phaseText, nameText, scopeText, operationText, callsText, recordsText,
    payloadText, elapsedText, endText⟩ := row_texts
  unfold writeWorkerRows
  rw [List.flatMap_map]
  apply congrArg fun row => operations.flatMap row
  funext entry
  simp only [rankText, phaseText, nameText, scopeText, operationText, callsText, recordsText,
    payloadText, elapsedText, endText, rowText, rowFields, Json.objectText, Json.membersText,
    Json.memberText, quoted, List.append_assoc, List.cons_append, List.nil_append]

/-- A text that needs no escape. -/
def PlainText (text : List Byte) : Prop := ∀ byte ∈ text, Json.Plain byte

instance (text : List Byte) : Decidable (PlainText text) :=
  List.decidableBAll Json.Plain text

/-- A text without control bytes. -/
def Printable (text : List Byte) : Prop := ∀ byte ∈ text, 32 ≤ byte

instance (text : List Byte) : Decidable (Printable text) :=
  List.decidableBAll (fun byte => 32 ≤ byte) text

theorem quoted_reads {text content : List Byte} (encodes : Json.Encodes text content) :
    Json.ReadsAs (quoted text) (.string content) :=
  .string encodes

theorem decimal_reads (value : Nat) : Json.ReadsAs (decimal value) (.number (decimal value)) :=
  .number (decimal_whole value)

/-- Every member of a row is read as it was meant. -/
theorem row_fields_read {operation : String} (scope : PlainText inScope)
    (named : PlainText (ascii operation)) (values : AmOperationProfile) :
    List.Forall₂ Json.MemberReads (rowFields rank profile inScope operation values)
      (rowMembers rank profile inScope operation values) := by
  have key : ∀ text, PlainText text → Json.Encodes text text := fun _ plain => .plain_text plain
  refine .cons ⟨key (ascii "rank") (by decide), decimal_reads _⟩ ?_
  refine .cons ⟨key (ascii "phase") (by decide), decimal_reads _⟩ ?_
  refine .cons ⟨key (ascii "name") (by decide), quoted_reads (json_escape_encodes _)⟩ ?_
  refine .cons ⟨key (ascii "scope") (by decide), quoted_reads (key _ scope)⟩ ?_
  refine .cons ⟨key (ascii "operation") (by decide), quoted_reads (key _ named)⟩ ?_
  refine .cons ⟨key (ascii "calls") (by decide), decimal_reads _⟩ ?_
  refine .cons ⟨key (ascii "records") (by decide), decimal_reads _⟩ ?_
  refine .cons ⟨key (ascii "payload_bytes") (by decide), decimal_reads _⟩ ?_
  exact .cons ⟨key (ascii "elapsed_nanoseconds") (by decide), decimal_reads _⟩ .nil

theorem operation_plain {entry : String × ProfileOperation} (member : entry ∈ operations) :
    PlainText (ascii entry.1) := by
  have all : ∀ entry ∈ operations, PlainText (ascii entry.1) := by decide
  exact all entry member

/-- A row is the JSON object of its members. -/
theorem read_row {entry : String × ProfileOperation} (scope : PlainText inScope)
    (member : entry ∈ operations) (worker : AmWorkerProfile) :
    Json.read (rowText rank profile inScope worker entry) =
      some (.object (rowMembers rank profile inScope entry.1 (worker entry.2))) :=
  Json.read_object (row_fields_read scope (operation_plain member) _) (List.cons_ne_nil _ _)

theorem plain_printable {text : List Byte} (plain : PlainText text) : Printable text :=
  fun byte member => UInt8.not_lt.mp (plain byte member).2.2

theorem Printable.append {first second : List Byte} (left : Printable first)
    (right : Printable second) : Printable (first ++ second) := by
  intro byte member
  rcases List.mem_append.mp member with inside | inside
  · exact left byte inside
  · exact right byte inside

theorem decimal_printable (value : Nat) : Printable (decimal value) := by
  intro byte member
  have digit := (Json.digit_range (decimal_digits value byte member)).1
  exact UInt8.le_trans (by decide) digit

theorem hex_word_printable (value : Nat) : Printable (hexWord value) := by
  have digit : ∀ nibble < 16, 32 ≤ hexDigit nibble := by decide
  have below : ∀ place, place % 16 < 16 := fun place => Nat.mod_lt place (by decide)
  intro byte member
  simp only [hexWord, List.mem_cons, List.not_mem_nil, or_false] at member
  rcases member with rfl | rfl | rfl | rfl
  · exact digit _ (below _)
  · exact digit _ (below _)
  · exact digit _ (below _)
  · exact digit _ (below _)

theorem escape_byte_printable (character : Byte) : Printable (escapeByte character) := by
  unfold escapeByte
  split_ifs with quote slash b f n r t control
  all_goals try decide
  · have escape : Printable (ascii "\\u") := by decide
    exact escape.append (hex_word_printable _)
  · intro byte member
    obtain rfl := List.mem_singleton.mp member
    exact UInt8.not_lt.mp control

theorem quoted_printable {text : List Byte} (printable : Printable text) :
    Printable (quoted text) := by
  have quote : Printable [34] := by decide
  exact quote.append (printable.append quote)

theorem json_escape_printable (value : List Byte) : Printable (jsonEscape value) := by
  intro byte member
  obtain ⟨character, _, inside⟩ := List.mem_flatMap.mp member
  exact escape_byte_printable character byte inside

/-- A row has no control byte, whatever the name is. -/
theorem row_printable {entry : String × ProfileOperation} (scope : PlainText inScope)
    (member : entry ∈ operations) (worker : AmWorkerProfile) :
    Printable (rowText rank profile inScope worker entry) := by
  have operation := plain_printable (operation_plain member)
  apply Json.object_text_bytes (by decide)
  · intro text inside
    simp only [rowFields, List.mem_cons, List.not_mem_nil, or_false] at inside
    rcases inside with rfl | rfl | rfl | rfl | rfl | rfl | rfl | rfl | rfl
    all_goals
      dsimp only
      exact plain_printable (by decide)
  · intro text inside
    simp only [rowFields, List.mem_cons, List.not_mem_nil, or_false] at inside
    rcases inside with rfl | rfl | rfl | rfl | rfl | rfl | rfl | rfl | rfl
    · exact decimal_printable _
    · exact decimal_printable _
    · exact quoted_printable (json_escape_printable _)
    · exact quoted_printable (plain_printable scope)
    · exact quoted_printable operation
    all_goals exact decimal_printable _

end Rows

section Profiles

variable {options : WriterOptions}

/-- The profile with a vector of worker counters. -/
def AmProfile.withWorkers (profile : AmProfile Nat) (workers : List AmWorkerProfile) :
    AmProfile Nat :=
  { profile with workers := fun worker => workers[worker]? }

/-- The options of a runtime with so many workers. -/
def WriterOptions.withWorkerCount (options : WriterOptions) (workerCount : Nat) : WriterOptions :=
  { options with workerCount := workerCount }

/-- The scopes of a profile in the order of their rows: the aggregate, then each worker. -/
def profileScopes (profile : AmProfile Nat) (workers : List AmWorkerProfile) :
    List (List Byte × AmWorkerProfile) :=
  (ascii "aggregate", profile.aggregate) ::
    workers.mapIdx fun workerIndex worker => (ascii "worker-" ++ decimal workerIndex, worker)

/-- The rows of a profile: for each scope one for each operation. -/
def profileLines (rank : Nat) (profile : AmProfile Nat) (workers : List AmWorkerProfile) :
    List (List Byte) :=
  (profileScopes profile workers).flatMap fun (inScope, worker) =>
    operations.map (rowText rank profile inScope worker)

/-- Visiting a vector by its indices is visiting its labelled entries. -/
theorem flatMap_indices {Item Entry Value : Type} (items : List Item) (label : Nat → Item → Entry)
    (visit : Entry → List Value) {row : Nat → List Value}
    (rows : ∀ index (inside : index < items.length),
      row index = visit (label index items[index])) :
    (List.range items.length).flatMap row = (items.mapIdx label).flatMap visit := by
  have same : (List.range items.length).map row = (items.mapIdx label).map visit := by
    apply List.ext_getElem
    · simp
    · intro index inside _
      have range : index < items.length := by simpa using inside
      simp [rows index range]
  rw [List.flatMap_def, same, List.flatMap_def]

/-- The text of a profile is its lines, each ended by a line feed. -/
theorem profile_rows_text (profile : AmProfile Nat) (workers : List AmWorkerProfile) :
    (options.withWorkerCount workers.length).profileRows (profile.withWorkers workers) =
      (profileLines options.rank profile workers).flatMap fun line => line ++ [10] := by
  have scope : ∀ inScope worker,
      writeWorkerRows options.rank (profile.withWorkers workers) inScope worker =
        (operations.map (rowText options.rank profile inScope worker)).flatMap
          fun line => line ++ [10] := fun _ worker => write_worker_rows_lines worker
  unfold WriterOptions.profileRows profileLines profileScopes
  rw [List.flatMap_cons, List.flatMap_append, ← scope, List.flatMap_assoc]
  apply congrArg (writeWorkerRows options.rank (profile.withWorkers workers)
    (ascii "aggregate") profile.aggregate ++ ·)
  apply flatMap_indices workers
  intro workerIndex inside
  simp only [← scope, AmProfile.withWorkers, List.getElem?_eq_getElem inside]
  rfl

/-- The rows of what an enabled recorder submits. -/
theorem snapshot_rows_text {recorder : AmProfileRecorder Nat} (enabled : recorder.enabled = true) :
    options.profileRows recorder.snapshot =
      (profileLines options.rank recorder.snapshot
        ((List.range options.workerCount).map recorder.workers)).flatMap
          fun line => line ++ [10] := by
  have count : ((List.range options.workerCount).map recorder.workers).length =
      options.workerCount := by simp
  rw [← profile_rows_text]
  unfold WriterOptions.profileRows WriterOptions.withWorkerCount
  rw [count]
  apply congrArg (writeWorkerRows options.rank recorder.snapshot (ascii "aggregate")
    recorder.snapshot.aggregate ++ ·)
  apply List.flatMap_congr
  intro workerIndex inside
  have range := List.mem_range.mp inside
  simp only [AmProfile.withWorkers, List.getElem?_map, List.getElem?_range range,
    AmProfileRecorder.snapshot, enabled, if_true, Option.map_some]
  rfl

/-- The texts of the scopes need no escape. -/
theorem scope_plain {profile : AmProfile Nat} {workers : List AmWorkerProfile}
    {scope : List Byte × AmWorkerProfile} (member : scope ∈ profileScopes profile workers) :
    PlainText scope.1 := by
  rcases List.mem_cons.mp member with rfl | worker
  · have aggregate : PlainText (ascii "aggregate") := by decide
    exact aggregate
  · obtain ⟨workerIndex, inside, rfl⟩ := List.mem_mapIdx.mp worker
    intro byte found
    rcases List.mem_append.mp found with label | digit
    · have worker : PlainText (ascii "worker-") := by decide
      exact worker byte label
    · exact Json.digit_plain (decimal_digits workerIndex byte digit)

/-- Where the name stands in a row. -/
theorem row_name_field (rank : Nat) (profile : AmProfile Nat) (inScope : List Byte)
    (worker : AmWorkerProfile) (entry : String × ProfileOperation) :
    ∃ before after, rowText rank profile inScope worker entry =
      before ++ ascii "\"name\":\"" ++ (jsonEscape profile.name ++ 34 :: after) := by
  have nameText : ascii "\"name\":\"" = 34 :: (ascii "name" ++ [34, 58, 34]) := by decide
  refine ⟨123 :: (Json.memberText (ascii "rank", decimal rank) ++
      44 :: (Json.memberText (ascii "phase", decimal profile.phaseSequence) ++ [44])),
    44 :: (Json.membersText ((rowFields rank profile inScope entry.1 (worker entry.2)).drop 3) ++
      [125]), ?_⟩
  simp only [nameText, rowText, rowFields, List.drop_succ_cons, List.drop_zero, Json.objectText,
    Json.membersText, Json.memberText, quoted, List.append_assoc, List.cons_append,
    List.nil_append]

theorem profile_lines_length (rank : Nat) (profile : AmProfile Nat)
    (workers : List AmWorkerProfile) :
    (profileLines rank profile workers).length = 4 * (1 + workers.length) := by
  have each : ∀ scope : List Byte × AmWorkerProfile,
      (operations.map (rowText rank profile scope.1 scope.2)).length = 4 :=
    fun _ => List.length_map _
  have scopes : (profileScopes profile workers).length = workers.length + 1 := by
    simp [profileScopes]
  unfold profileLines
  simp only [List.length_flatMap, each, List.map_const', List.sum_replicate_nat, scopes]
  omega

/-- Rows of two profiles that agree come from profiles of one name. -/
theorem row_names_agree {rank otherRank : Nat} {profile other : AmProfile Nat}
    {workers otherWorkers : List AmWorkerProfile} {line : List Byte}
    (own : line ∈ profileLines rank profile workers)
    (others : line ∈ profileLines otherRank other otherWorkers) : other.name = profile.name := by
  obtain ⟨scope, inside, row⟩ := List.mem_flatMap.mp own
  obtain ⟨entry, member, rfl⟩ := List.mem_map.mp row
  obtain ⟨otherScope, otherInside, otherRow⟩ := List.mem_flatMap.mp others
  obtain ⟨otherEntry, otherMember, same⟩ := List.mem_map.mp otherRow
  have ownRead : Json.read (rowText rank profile scope.1 scope.2 entry) = _ :=
    read_row (scope_plain inside) member scope.2
  have otherRead : Json.read (rowText otherRank other otherScope.1 otherScope.2 otherEntry) = _ :=
    read_row (scope_plain otherInside) otherMember otherScope.2
  have members := otherRead.symm.trans ((congrArg Json.read same).trans ownRead)
  simp only [rowMembers, Option.some.injEq, Json.object.injEq, List.cons.injEq, Prod.mk.injEq,
    Json.string.injEq, true_and] at members
  exact members.2.2.1

theorem lines_printable {rank : Nat} {profile : AmProfile Nat} {workers : List AmWorkerProfile}
    {line : List Byte} (member : line ∈ profileLines rank profile workers) :
    Printable line := by
  obtain ⟨scope, inside, row⟩ := List.mem_flatMap.mp member
  obtain ⟨entry, found, rfl⟩ := List.mem_map.mp row
  exact row_printable (scope_plain inside) found scope.2

/-- The lines of the text are the rows. -/
theorem lines_of_profile (rank : Nat) (profile : AmProfile Nat) (workers : List AmWorkerProfile) :
    Json.lines ((profileLines rank profile workers).flatMap fun line => line ++ [10]) =
      profileLines rank profile workers := by
  apply Json.lines_flatMap
  rintro line member byte inside rfl
  exact absurd (lines_printable member 10 inside) (by decide)

/-- For every name the rows of a profile are four lines for each scope, each a JSON
object without control bytes, and the name is read back to its closing quote. -/
theorem profile_rows_framed (options : WriterOptions) (profile : AmProfile Nat)
    (workers : List AmWorkerProfile) :
    let text := (options.withWorkerCount workers.length).profileRows (profile.withWorkers workers)
    text = (profileLines options.rank profile workers).flatMap (fun line => line ++ [10]) ∧
      Json.lines text = profileLines options.rank profile workers ∧
      (Json.lines text).length = 4 * (1 + workers.length) ∧
      (∀ scope ∈ profileScopes profile workers, ∀ entry ∈ operations,
        let line := rowText options.rank profile scope.1 scope.2 entry
        (∀ byte ∈ line, 32 ≤ byte) ∧
          Json.read line =
            some (.object (rowMembers options.rank profile scope.1 entry.1 (scope.2 entry.2))) ∧
          ∃ before after,
            line = before ++ ascii "\"name\":\"" ++
              (jsonEscapeStream profile.name ++ 34 :: after) ∧
            Json.decodeString (jsonEscapeStream profile.name ++ 34 :: after) =
              some (profile.name, after)) ∧
      ∀ otherRank other otherWorkers, ∀ line ∈ profileLines options.rank profile workers,
        line ∈ profileLines otherRank other otherWorkers → other.name = profile.name := by
  intro text
  have ended : text = (profileLines options.rank profile workers).flatMap
      fun line => line ++ [10] := profile_rows_text profile workers
  have split : Json.lines text = profileLines options.rank profile workers := by
    rw [ended, lines_of_profile]
  refine ⟨ended, split, ?_, ?_, ?_⟩
  · rw [split, profile_lines_length]
  · intro scope inside entry member line
    refine ⟨row_printable (scope_plain inside) member scope.2,
      read_row (scope_plain inside) member scope.2, ?_⟩
    obtain ⟨before, after, field⟩ :=
      row_name_field options.rank profile scope.1 scope.2 entry
    rw [json_escape_stream]
    exact ⟨before, after, field, (json_escape_encodes profile.name).closed after⟩
  · intro otherRank other otherWorkers line own others
    exact row_names_agree own others

end Profiles

end IntegerSortLci.Runtime
