import Docket.Json.Token

/-! A JSON text is read token by token. The documents still open wait on a stack, so the
reader's state is the stack and what may come next, and reading is one pass whose depth
of nesting costs no depth of recursion. -/
namespace Docket.Json

/-- A document still open: the values read so far, the last first, and for an object the key
whose value is being read. -/
inductive Frame where
  | array (items : List Json)
  | object (members : List (Option String × Json)) (key : Option String)

/-- What the text may go on with. -/
inductive Stage where
  /-- A value has to follow. -/
  | value
  /-- The first item or the end of an array just opened. -/
  | item
  /-- The first key or the end of an object just opened. -/
  | entry
  /-- A key has to follow the members read so far. -/
  | key (members : List (Option String × Json))
  /-- A colon has to follow the key. -/
  | colon (members : List (Option String × Json)) (key : Option String)
  /-- A value is complete. -/
  | done (value : Json)

/-- The state of reading: the open documents, the innermost first, and the stage. -/
structure Reading where
  frames : List Frame
  stage : Stage

/-- A quoted text, which has a value unless it is torn. -/
def ofQuoted : Option String → Json
  | some value => .text value
  | none => .unreadable

/-- An object of members in order; a single torn key leaves the whole without a value. -/
def ofMembers (members : List (Option String × Json)) : Json :=
  match members.mapM fun (key, value) => key.map (·, value) with
  | some readable => .object readable
  | none => .unreadable

/-- Begins a value inside the given open documents. -/
def begin (frames : List Frame) : Token → Option Reading
  | .openArray => some ⟨frames, .item⟩
  | .openObject => some ⟨frames, .entry⟩
  | .text value => some ⟨frames, .done (ofQuoted value)⟩
  | .plain value => some ⟨frames, .done value⟩
  | _ => none

/-- What follows a complete value: a separator, or the end of the document around it. -/
def proceed (value : Json) : List Frame → Token → Option Reading
  | .array items :: frames, .comma => some ⟨.array (value :: items) :: frames, .value⟩
  | .array items :: frames, .closeArray => some ⟨frames, .done (.array (value :: items).reverse)⟩
  | .object members key :: frames, .comma => some ⟨frames, .key ((key, value) :: members)⟩
  | .object members key :: frames, .closeObject =>
    some ⟨frames, .done (ofMembers ((key, value) :: members).reverse)⟩
  | _, _ => none

/-- Takes one token. -/
def Reading.accept (reading : Reading) (token : Token) : Option Reading :=
  match reading.stage, token with
  | .value, token => begin reading.frames token
  | .item, .closeArray => some ⟨reading.frames, .done (.array [])⟩
  | .item, token => begin (.array [] :: reading.frames) token
  | .entry, .closeObject => some ⟨reading.frames, .done (.object [])⟩
  | .entry, .text key => some ⟨reading.frames, .colon [] key⟩
  | .key members, .text key => some ⟨reading.frames, .colon members key⟩
  | .colon members key, .colon => some ⟨.object members key :: reading.frames, .value⟩
  | .done value, token => proceed value reading.frames token
  | _, _ => none

/-- The document read, once it is complete and nothing is open. -/
def Reading.result? : Reading → Option Json
  | ⟨[], .done value⟩ => some value
  | _ => none

/-- Reads on to the end of the text. -/
def Reading.finish? (reading : Reading) : List Char → Option Json
  | [] => reading.result?
  | c :: rest =>
    if isSpace c then reading.finish? rest
    else
      match _taken : Token.next? (c :: rest) with
      | none => none
      | some (token, after) =>
        match reading.accept token with
        | none => none
        | some next => next.finish? after
termination_by text => text.length
decreasing_by
  · simp
  · exact Token.next?_shortens _taken

/-- The document that a text spells, if it spells exactly one. -/
def parse? (text : String) : Option Json := Reading.finish? ⟨[], .value⟩ text.toList

end Docket.Json
