set_option autoImplicit false

namespace ShellWalk.Text

abbrev Bytes := List UInt8

def replacement : Char := '\uFFFD'

def encodeUtf8 (text : String) : Bytes := text.toUTF8.toList

structure Lead where
  count : Nat
  low : Nat
  high : Nat
  bits : Nat

def lead? (byte : Nat) : Option Lead :=
  if byte < 0x80 then some ⟨0, 0, 0, byte⟩
  else if byte < 0xC2 then none
  else if byte < 0xE0 then some ⟨1, 0x80, 0xBF, byte - 0xC0⟩
  else if byte = 0xE0 then some ⟨2, 0xA0, 0xBF, 0⟩
  else if byte = 0xED then some ⟨2, 0x80, 0x9F, 0xD⟩
  else if byte < 0xF0 then some ⟨2, 0x80, 0xBF, byte - 0xE0⟩
  else if byte = 0xF0 then some ⟨3, 0x90, 0xBF, 0⟩
  else if byte < 0xF4 then some ⟨3, 0x80, 0xBF, byte - 0xF0⟩
  else if byte = 0xF4 then some ⟨3, 0x80, 0x8F, 4⟩
  else none

def continued : Nat → Nat → Nat → Nat → Bytes → Char × Bytes
  | 0, _, _, bits, rest => (Char.ofNat bits, rest)
  | _ + 1, _, _, _, [] => (replacement, [])
  | count + 1, low, high, bits, byte :: rest =>
      if low ≤ byte.toNat ∧ byte.toNat ≤ high then
        continued count 0x80 0xBF (bits * 64 + (byte.toNat - 0x80)) rest
      else (replacement, byte :: rest)

theorem continued_rest_length (count low high bits : Nat) (bytes : Bytes) :
    (continued count low high bits bytes).2.length ≤ bytes.length := by
  induction count generalizing low high bits bytes with
  | zero => simp [continued]
  | succ count ih =>
      cases bytes with
      | nil => simp [continued]
      | cons byte rest =>
          rw [continued]
          split
          · have := ih 0x80 0xBF (bits * 64 + (byte.toNat - 0x80)) rest
            simp only [List.length_cons]
            omega
          · simp

def decodeUtf8 (done : List Char) (bytes : Bytes) : List Char :=
  match bytes with
  | [] => done.reverse
  | byte :: rest =>
      match lead? byte.toNat with
      | none => decodeUtf8 (replacement :: done) rest
      | some lead =>
          decodeUtf8 ((continued lead.count lead.low lead.high lead.bits rest).1 :: done)
            (continued lead.count lead.low lead.high lead.bits rest).2
termination_by bytes.length
decreasing_by
  · simp
  · have := continued_rest_length lead.count lead.low lead.high lead.bits rest
    simp only [List.length_cons]
    omega

def textOfUtf8 (bytes : Bytes) : String := String.ofList (decodeUtf8 [] bytes)

def octets (text : String) : String :=
  String.ofList ((encodeUtf8 text).map fun byte => Char.ofNat byte.toNat)

def ofOctets (text : String) : String :=
  textOfUtf8 (text.toList.map fun c => UInt8.ofNat c.toNat)

end ShellWalk.Text
