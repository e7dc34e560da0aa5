import DroneServer.Lib.SqlText
import DroneServer.Websocket.Requests
import DroneServer.Websocket.Survival

/-! # The text of an insert

`FlightDatabase` puts two strings of the message between quotes as they are, and
fourteen values between commas as the JSON library prints them. What the database
reads is a row of that data exactly when the strings need no escapes and every value
is printed as a literal.
-/

namespace DroneServer

open SqlText Handling

namespace Json

/-- A character of a string as the library prints it. -/
def escape (c : UInt8) : Bytes :=
  if c = 0x08 then ascii "\\b"
  else if c = 0x09 then ascii "\\t"
  else if c = 0x0a then ascii "\\n"
  else if c = 0x0c then ascii "\\f"
  else if c = 0x0d then ascii "\\r"
  else if c = 0x22 then ascii "\\\""
  else if c = 0x5c then ascii "\\\\"
  else if c < 0x20 then ascii "\\u00" ++ hexDigits c
  else [c]

end Json

/-- How `dump` prints values, as far as their first character in the case of containers. A double that
    is not finite is printed as null. -/
structure JsonText.Dumps (json : JsonText) : Prop where
  null : json.dump .null = ascii "null"
  boolean : ∀ value, json.dump (.boolean value) = ascii (if value then "true" else "false")
  unsigned : ∀ value, isNumeral (json.dump (.unsigned value)) = true
  integer : ∀ value, isNumeral (json.dump (.integer value)) = true
  float : ∀ bits, isNumeral (json.dump (.float bits)) = true ∨ json.dump (.float bits) = ascii "null"
  string : ∀ value, json.dump (.string value) = 0x22 :: (value.flatMap Json.escape ++ [0x22])
  array : ∀ items, ∃ text, json.dump (.array items) = 0x5b :: text
  object : ∀ members, ∃ text, json.dump (.object members) = 0x7b :: text

namespace Json

/-- The value is printed as one literal, a string only if double quotes delimit literals. -/
def Scalar (double : Bool) : Json → Prop
  | .null | .boolean _ | .unsigned _ | .integer _ | .float _ => True
  | .string _ => double = true
  | .array _ | .object _ => False

instance (double : Bool) : (j : Json) → Decidable (j.Scalar double)
  | .null | .boolean _ | .unsigned _ | .integer _ | .float _ => .isTrue trivial
  | .string _ => inferInstanceAs (Decidable (double = true))
  | .array _ | .object _ => .isFalse id

theorem quoted_escape (c : UInt8) :
    ∃ value, ∀ text, quoted .double (escape c ++ text) = prepend value (quoted .double text) := by
  have two : ∀ d, ∃ value, ∀ text,
      quoted .double ([backslash, d] ++ text) = prepend value (quoted .double text) :=
    fun d => ⟨escaped d, quoted_escaped d⟩
  unfold escape
  iterate 7
    split
    · exact two _
  split
  · next low =>
      have digits : ∀ n < 32, ∀ d ∈ 0x30 :: 0x30 :: hexDigits (UInt8.ofNat n),
          ¬ Special .double d := by decide +kernel
      have ordinary := digits c.toNat low
      rw [UInt8.ofNat_toNat] at ordinary
      obtain ⟨value, read⟩ := two 0x75
      refine ⟨value ++ 0x30 :: 0x30 :: hexDigits c, fun text => ?_⟩
      rw [← prepend_prepend, ← quoted_ordinaries ordinary, ← read]
      rfl
  · next quote escape _ =>
      exact ⟨[c], quoted_ordinary (not_or.mpr ⟨quote, escape⟩)⟩

theorem quoted_escapes (value : Bytes) :
    ∃ read, ∀ tail : Bytes, tail.head? ≠ some Quote.double.char →
      quoted .double (value.flatMap escape ++ Quote.double.char :: tail) = some (read, tail) := by
  induction value with
  | nil => exact ⟨[], fun _ other => quoted_closed other⟩
  | cons c value ih =>
      obtain ⟨later, read⟩ := ih
      obtain ⟨first, step⟩ := quoted_escape c
      refine ⟨first ++ later, fun tail other => ?_⟩
      rw [List.flatMap_cons, List.append_assoc, step, read tail other]
      rfl

variable {json : JsonText} {double : Bool} {j : Json}

/-- Every value is printed as a text that is read as one literal, or not at all. -/
theorem cell_dump (dumps : json.Dumps) (double : Bool) (j : Json) :
    ∃ read, Cell double (json.dump j) read ∧ (read ≠ none ↔ j.Scalar double) := by
  have word : ∀ word, isNumeral word = true ∨ word = ascii "null" ∨ word = ascii "true" ∨
      word = ascii "false" → ∃ read, Cell double word read ∧ (read ≠ none ↔ True) := by
    rintro word (numeral | rfl | rfl | rfl)
    · exact ⟨_, cell_bare (solid_numeral numeral) (.inl numeral), by simp⟩
    · exact ⟨_, cell_bare (by decide +kernel) (.inr (by decide +kernel)), by simp⟩
    · exact ⟨_, cell_bare (by decide +kernel) (.inr (by decide +kernel)), by simp⟩
    · exact ⟨_, cell_bare (by decide +kernel) (.inr (by decide +kernel)), by simp⟩
  cases j with
  | null => exact word _ (.inr (.inl dumps.null))
  | boolean value =>
      rw [dumps.boolean]
      cases value with
      | true => exact word _ (.inr (.inr (.inl rfl)))
      | false => exact word _ (.inr (.inr (.inr rfl)))
  | unsigned value => exact word _ (.inl (dumps.unsigned value))
  | integer value => exact word _ (.inl (dumps.integer value))
  | float bits =>
      obtain numeral | null := dumps.float bits
      · exact word _ (.inl numeral)
      · exact word _ (.inr (.inl null))
  | string value =>
      rw [dumps.string]
      cases double with
      | true =>
          obtain ⟨read, reads⟩ := quoted_escapes value
          exact ⟨_, cell_string reads, by simp [Scalar]⟩
      | false => exact ⟨none, cell_identifier _, by simp [Scalar]⟩
  | array items =>
      obtain ⟨text, printed⟩ := dumps.array items
      rw [printed]
      exact ⟨none, cell_other (by decide) (by decide) (by decide) (by decide) text, by simp [Scalar]⟩
  | object members =>
      obtain ⟨text, printed⟩ := dumps.object members
      rw [printed]
      exact ⟨none, cell_other (by decide) (by decide) (by decide) (by decide) text, by simp [Scalar]⟩

end Json

namespace FlightDatabase

/-- The values between the two strings. -/
def cells (j : Json) : Except Failure (List Json) := do
  let altitude ← j.field₂ "data" "altitude"
  let values ← columns.mapM fun (group, name) => do (← j.field₂ "data" group).field name
  pure (altitude :: values)

/-- `handle_string` calls `con->insert` with this text: a database that takes every row gets it. -/
def Issues (json : JsonText) (msg ins : Bytes) : Prop :=
  ∃ db w, handleString json {} db msg w = .ok true (w.note (.inserted db ins))

/-- The text reads as one row, in the mode given: a literal that denotes `data.client_id`, fourteen
    others, and one that denotes `data.timestamp`. -/
def ReadsBack (double : Bool) (j : Json) (ins : Bytes) : Prop :=
  ∃ clientId timestamp values, j.dataString "client_id" = .ok clientId ∧
    j.dataString "timestamp" = .ok timestamp ∧ values.length = 14 ∧
      insertion double (ascii "flight_data") 15 ins =
        some (.quoted clientId :: (values ++ [.quoted timestamp]))

/-- No character of the two strings is special, and every value is printed as a literal. -/
def Harmless (double : Bool) (j : Json) : Prop :=
  (∀ clientId, j.dataString "client_id" = .ok clientId → Plain .single clientId) ∧
    (∀ timestamp, j.dataString "timestamp" = .ok timestamp → Plain .single timestamp) ∧
      ∀ values, cells j = .ok values → ∀ value ∈ values, value.Scalar double

variable {json : JsonText} {msg ins : Bytes} {j : Json}

theorem intercalate_cells (cell : Bytes) (cells : List Bytes) :
    (ascii ",").intercalate (cell :: cells) = cell ++ cells.flatMap (0x2c :: ·) := by
  induction cells generalizing cell with
  | nil => simp
  | cons next cells ih =>
      rw [List.intercalate_cons_cons, ih]
      simp [ascii]

theorem mapM_length {α β : Type} {read : α → Except Failure β} {as : List α} {bs : List β}
    (mapped : as.mapM read = .ok bs) : bs.length = as.length := by
  induction as generalizing bs with
  | nil =>
      cases mapped
      rfl
  | cons a as ih =>
      rw [List.mapM_cons] at mapped
      obtain ⟨b, _, mapped⟩ := bind_ok.mp mapped
      obtain ⟨later, rest, same⟩ := bind_ok.mp mapped
      cases same
      exact congrArg (· + 1) (ih rest)

theorem statement_row (built : statement json j = .ok ins) :
    ∃ clientId timestamp values, j.dataString "client_id" = .ok clientId ∧
      j.dataString "timestamp" = .ok timestamp ∧ cells j = .ok values ∧ values.length = 14 ∧
        ins = rowText (ascii "flight_data") clientId (values.map json.dump) timestamp := by
  obtain ⟨clientId, first, built⟩ := bind_ok.mp built
  obtain ⟨altitude, second, built⟩ := bind_ok.mp built
  obtain ⟨values, middle, built⟩ := bind_ok.mp built
  obtain ⟨timestamp, last, built⟩ := bind_ok.mp built
  cases built
  refine ⟨clientId, timestamp, altitude :: values, first, last, ?_,
    congrArg (· + 1) (mapM_length middle), ?_⟩
  · rw [cells, second]
    exact bind_ok.mpr ⟨altitude, rfl, bind_ok.mpr ⟨values, middle, rfl⟩⟩
  · rw [List.map_cons, intercalate_cells, rowText, enclose, enclose]
    simp [opening, ascii, spell, Quote.char]

theorem note_injective {w : World} {db : DatabaseRef} {ins' : Bytes}
    (same : w.note (.inserted db ins) = w.note (.inserted db ins')) : ins = ins' := by
  have effects := List.append_cancel_left (congrArg World.effects same)
  cases effects
  rfl

/-- A text is issued for a message of the type that has all a row needs, and it is its statement. -/
theorem handleString_issues (parsed : json.parse msg = some j) (db : DatabaseRef) (w : World) :
    handleString json {} db msg w = .ok true (w.note (.inserted db ins)) ↔
      j.Asks "data_broadcast" ∧ statement json j = .ok ins := by
  have ran : handleString json {} db msg = unlessJson (do
      let type ← attempt (j.field "type")
      if type.Is "data_broadcast" then
        let ins ← attempt (statement json j)
        modify (·.note (.inserted db ins))
        pure true
      else pure false) := by
    unfold handleString Handling.parse
    rw [parsed]
    rfl
  rw [ran]
  cases typed : j.field "type" with
  | error e =>
      rw [Json.field_error typed]
      refine iff_of_false nofun ?_
      rintro ⟨⟨_, read, _⟩, _⟩
      cases typed.symm.trans read
  | ok type =>
      rw [Json.asks_iff typed]
      simp only [attempt, pure_bind]
      by_cases is : type.Is "data_broadcast"
      · rw [if_pos is, and_iff_right is]
        cases built : statement json j with
        | error e =>
            obtain rfl := statement_plain json j e built
            exact iff_of_false nofun nofun
        | ok ins' =>
            constructor
            · intro noted
              exact congrArg _ (note_injective (EStateM.Result.ok.inj noted).2)
            · rintro ⟨⟩
              rfl
      · rw [if_neg is]
        exact iff_of_false nofun fun ⟨asks, _⟩ => is asks

theorem issues_iff (parsed : json.parse msg = some j) :
    Issues json msg ins ↔ j.Asks "data_broadcast" ∧ statement json j = .ok ins :=
  ⟨fun ⟨db, w, ran⟩ => (handleString_issues parsed db w).mp ran,
    fun built => ⟨0, {}, (handleString_issues parsed 0 {}).mpr built⟩⟩

end FlightDatabase

open FlightDatabase

/-- Of every message that makes the flight database call `insert`: what the database reads is that row
    exactly when nothing in it is harmful. -/
theorem insert_reads_back_iff {json : JsonText} {msg ins : Bytes} {j : Json} (double : Bool)
    (dumps : json.Dumps) (parsed : json.parse msg = some j) (issues : Issues json msg ins) :
    ReadsBack double j ins ↔ Harmless double j := by
  obtain ⟨_, built⟩ := (issues_iff parsed).mp issues
  obtain ⟨clientId, timestamp, values, first, last, middle, fourteen, rfl⟩ := statement_row built
  have each : ∀ cell ∈ values.map json.dump, ∃ read, Cell double cell read := by
    intro cell inside
    obtain ⟨value, _, rfl⟩ := List.mem_map.mp inside
    obtain ⟨read, reads, _⟩ := Json.cell_dump dumps double value
    exact ⟨read, reads⟩
  have literal : (∀ cell ∈ values.map json.dump, ∃ l, Cell double cell (some l)) ↔
      ∀ value ∈ values, value.Scalar double := by
    rw [List.forall_mem_map]
    refine forall₂_congr fun value _ => ?_
    obtain ⟨read, reads, scalar⟩ := Json.cell_dump dumps double value
    rw [← scalar, Option.ne_none_iff_exists']
    exact exists_congr fun l => ⟨fun literal => reads.unique literal, fun same => same ▸ reads⟩
  have row := insertion_iff (ascii "flight_data") clientId timestamp each
  rw [literal, List.length_map, fourteen] at row
  simp only [ReadsBack, Harmless, first, last, middle, Except.ok.injEq, forall_eq', ← row]
  constructor
  · rintro ⟨_, _, ls, rfl, rfl, length, read⟩
    exact ⟨ls, length, read⟩
  · rintro ⟨ls, length, read⟩
    exact ⟨_, _, ls, rfl, rfl, length, read⟩

namespace Requests

/-- The library for these values, with the strings in a row escaped as they are printed. -/
def rowLibrary (values : List Json) : JsonText where
  parse := (library values).parse
  dump
    | .string value => 0x22 :: (value.flatMap Json.escape ++ [0x22])
    | j => print j

theorem rowLibrary_dumps (values : List Json) : (rowLibrary values).Dumps where
  null := rfl
  boolean := fun _ => rfl
  unsigned := fun value => isNumeral_nat value.toNat
  integer := fun value => isNumeral_int value.toInt
  float := fun _ => .inr rfl
  string := fun _ => rfl
  array := fun _ => ⟨_, rfl⟩
  object := fun _ => ⟨_, rfl⟩

/-- A `data_broadcast` of a client and an altitude, with zeros for the other values. -/
def dataBroadcast (clientId : String) (altitude : Json) : Json :=
  let zeros (names : List String) : Json := .object (names.map fun name => (ascii name, .unsigned 0))
  .object [(ascii "data", .object [
      (ascii "aircraft_orientation", zeros ["compass", "pitch", "roll", "yaw"]),
      (ascii "aircraft_velocity", zeros ["velocity_x", "velocity_y", "velocity_z"]),
      (ascii "altitude", altitude),
      (ascii "client_id", Json.str clientId),
      (ascii "gimbal_orientation", zeros ["pitch", "roll", "yaw", "yaw_relative"]),
      (ascii "gps", zeros ["latitude", "longitude"]),
      (ascii "timestamp", Json.str "2020-01-01 12:00:00")]),
    (ascii "type", Json.str "data_broadcast")]

/-- The statement of such a message. -/
def inserted (clientId altitude : String) : Bytes :=
  ascii ("INSERT INTO flight_data VALUES ('" ++ clientId ++ "'," ++ altitude ++
    ",0,0,0,0,0,0,0,0,0,0,0,0,0,'2020-01-01 12:00:00');")

end Requests

open Requests

theorem library_parse (j : Json) : (rowLibrary [j]).parse (print j) = some j := by
  simp [rowLibrary, library]

set_option maxRecDepth 8000 in
theorem insert_reads_back_iff_plain :
    ReadsBack false (dataBroadcast "1" (.unsigned 7)) (inserted "1" "7") := by
  have parsed := library_parse (dataBroadcast "1" (.unsigned 7))
  have issues : Issues (rowLibrary [dataBroadcast "1" (.unsigned 7)])
      (print (dataBroadcast "1" (.unsigned 7))) (inserted "1" "7") := by
    refine (issues_iff parsed).mpr ⟨⟨Json.str "data_broadcast", rfl, rfl⟩, ?_⟩
    decide +kernel
  refine (insert_reads_back_iff false (rowLibrary_dumps _) parsed issues).mpr ⟨?_, ?_, ?_⟩
  · rintro clientId ⟨⟩
    decide
  · rintro timestamp ⟨⟩
    decide
  · rintro values ⟨⟩
    decide

/-- A client id that ends the literal, the row and the statement, and goes on with another. -/
def injection : Json :=
  dataBroadcast "1',0,0,0,0,0,0,0,0,0,0,0,0,0,0,'2020-01-01'); DROP TABLE flight_data; -- "
    (.unsigned 7)

/-- An altitude that is no number. -/
def listed : Json := dataBroadcast "1" (.array [.unsigned 7, .unsigned 8])

theorem unread {double : Bool} {j : Json} {ins : Bytes}
    (none : insertion double (ascii "flight_data") 15 ins = none) : ¬ ReadsBack double j ins := by
  rintro ⟨_, _, _, _, _, _, read⟩
  cases none.symm.trans read

set_option maxRecDepth 8000 in
/-- Both are inserted, and neither text reads as one row, whichever quotes delimit literals. -/
theorem insert_carries_syntax :
    (∃ ins, Issues (rowLibrary [injection]) (print injection) ins ∧
      ¬ ReadsBack false injection ins ∧ ¬ ReadsBack true injection ins) ∧
    ∃ ins, Issues (rowLibrary [listed]) (print listed) ins ∧
      ¬ ReadsBack false listed ins ∧ ¬ ReadsBack true listed ins := by
  have issued : ∀ j : Json, j.Asks "data_broadcast" →
      (∃ ins, statement (rowLibrary [j]) j = .ok ins ∧
        insertion false (ascii "flight_data") 15 ins = none ∧
          insertion true (ascii "flight_data") 15 ins = none) →
      ∃ ins, Issues (rowLibrary [j]) (print j) ins ∧
        ¬ ReadsBack false j ins ∧ ¬ ReadsBack true j ins := by
    rintro j asks ⟨ins, built, none, none'⟩
    exact ⟨ins, (issues_iff (library_parse j)).mpr ⟨asks, built⟩, unread none, unread none'⟩
  have asks : ∀ clientId altitude, (dataBroadcast clientId altitude).Asks "data_broadcast" :=
    fun _ _ => ⟨Json.str "data_broadcast", rfl, rfl⟩
  exact ⟨issued injection (asks _ _) (by decide +kernel), issued listed (asks _ _) (by decide +kernel)⟩

end DroneServer
