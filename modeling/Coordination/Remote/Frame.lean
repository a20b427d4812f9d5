import Coordination.Remote.Message.Packed

/-! Messages on a byte stream, each behind the length of its body in four bytes. -/

namespace Coordination.Frame

/-- Longest body that is read from a stream. -/
def maxBody : Nat := 100 * 1024 * 1024

/-- Lengths are written modulo the width of their field. -/
def write (m : Message) : Bytes := Bytes.littleEndian 4 m.bytes.length ++ m.bytes

/-! Why no message can be read. -/

inductive Flaw where
  | bufferTooShort (length : Nat)
  | incomplete (needed length : Nat)
  | noLength
  | tooLarge (length : Nat)
  | noBody
  | undecodable
  deriving DecidableEq, Repr

namespace Flaw

def message : Flaw → String
  | .bufferTooShort length =>
      s!"Buffer too small for message length (need 4 bytes, got {length})"
  | .incomplete needed length => s!"Incomplete message (need {needed} bytes, got {length})"
  | .noLength => "Failed to read message length"
  | .tooLarge length => s!"Message too large: {length} bytes (max 100MB)"
  | .noBody => "Failed to read message body"
  | .undecodable => "Failed to deserialize message"

/-- The message with its cause, where the stream ended too soon. -/
def withCause (flaw : Flaw) : String :=
  match flaw with
  | .noLength | .noBody => flaw.message ++ ": early eof"
  | _ => flaw.message

end Flaw

/-! Reading. -/

/-- The message at the start of a buffer, and the count of bytes that it takes. -/
def decode (buffer : Bytes) : Except Flaw (Message × Nat) :=
  match Bytes.take? 4 buffer with
  | none => .error (.bufferTooShort buffer.length)
  | some (lengthField, rest) =>
      let length := Bytes.ofLittleEndian lengthField
      match Bytes.take? length rest with
      | none => .error (.incomplete (4 + length) buffer.length)
      | some (body, _) =>
          match Message.ofBytes? body with
          | some m => .ok (m, 4 + length)
          | none => .error .undecodable

/-- What can be told of the bytes that have arrived so far. -/
inductive Progress where
  | message (m : Message) (rest : Bytes)
  | flawed (flaw : Flaw)
  | partialLength
  | partialBody

def scan (arrived : Bytes) : Progress :=
  match Bytes.take? 4 arrived with
  | none => .partialLength
  | some (lengthField, rest) =>
      let length := Bytes.ofLittleEndian lengthField
      if maxBody < length then .flawed (.tooLarge length)
      else
        match Bytes.take? length rest with
        | none => .partialBody
        | some (body, rest) =>
            match Message.ofBytes? body with
            | some m => .message m rest
            | none => .flawed .undecodable

/-- The next message of a stream that ends with the bytes given. -/
def read (stream : Bytes) : Except Flaw (Message × Bytes) :=
  match scan stream with
  | .message m rest => .ok (m, rest)
  | .flawed flaw => .error flaw
  | .partialLength => .error .noLength
  | .partialBody => .error .noBody

/-- All messages of a stream, each with the count of bytes left, and the flaw that ends it; `fuel`
bounds the count of messages. -/
def readAllWith (fuel : Nat) (stream : Bytes) : List (Message × Nat) × Flaw :=
  match fuel with
  | 0 => ([], .noLength)
  | fuel + 1 =>
      match read stream with
      | .error flaw => ([], flaw)
      | .ok (m, rest) =>
          let (later, flaw) := readAllWith fuel rest
          ((m, rest.length) :: later, flaw)

def readAll (stream : Bytes) : List (Message × Nat) × Flaw :=
  readAllWith (stream.length + 1) stream

end Coordination.Frame
