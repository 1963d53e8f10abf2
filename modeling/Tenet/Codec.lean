import Tenet.Noise

/-! The bytes of handshake messages, for nodes that read each other's packets. -/

namespace Tenet

/-- The bytes of handshake messages. Whatever bytes arrive are read as some message. -/
structure Codec where
  wire : Message → Bytes
  read : Bytes → Message
  read_wire : ∀ message, read (wire message) = message

namespace Codec

/-- A field that ends where a `0` stands in the place of a `1`. -/
def field : Bytes → Bytes
  | [] => [0]
  | byte :: rest => 1 :: byte :: field rest

def splitField : Bytes → Bytes × Bytes
  | mark :: byte :: rest =>
      if mark = 1 then ((byte :: (splitField rest).1), (splitField rest).2) else ([], byte :: rest)
  | _ => ([], [])

theorem splitField_field (bytes rest : Bytes) : splitField (field bytes ++ rest) = (bytes, rest) := by
  induction bytes with
  | nil => cases rest <;> rfl
  | cons byte bytes ih =>
      show splitField (1 :: byte :: (field bytes ++ rest)) = _
      rw [splitField, if_pos rfl, ih]

def firstKey : Message → Bytes
  | .one ephemeral => ephemeral
  | .two first _ _ _ => firstKey first
  | .three second _ => firstKey second

def layers : Message → Bytes
  | .one _ => []
  | .two first prologue ephemeral static =>
      layers first ++ 2 :: (field prologue ++ (field ephemeral ++ field static))
  | .three second static => layers second ++ 3 :: field static

def depth : Message → Nat
  | .one _ => 0
  | .two first _ _ _ => depth first + 1
  | .three second _ => depth second + 1

def addLayers : Nat → Message → Bytes → Message
  | 0, message, _ => message
  | _ + 1, message, [] => message
  | fuel + 1, message, tag :: rest =>
      let (one, rest) := splitField rest
      if tag = 3 then addLayers fuel (.three message one) rest
      else
        let (two, rest) := splitField rest
        let (three, rest) := splitField rest
        addLayers fuel (.two message one two three) rest

theorem addLayers_layers (message : Message) (fuel : Nat) (rest : Bytes) :
    addLayers (fuel + depth message) (.one (firstKey message)) (layers message ++ rest) =
      addLayers fuel message rest := by
  induction message generalizing fuel rest with
  | one ephemeral => rfl
  | two first prologue ephemeral static ih =>
      have other : ¬(2 : UInt8) = 3 := by decide
      have next := ih (fuel + 1)
        (2 :: (field prologue ++ (field ephemeral ++ (field static ++ rest))))
      rw [Nat.add_right_comm] at next
      simp only [depth, firstKey, layers, List.append_assoc, List.cons_append, ← Nat.add_assoc, next,
        addLayers, splitField_field, if_neg other]
  | three second static ih =>
      have next := ih (fuel + 1) (3 :: (field static ++ rest))
      rw [Nat.add_right_comm] at next
      simp only [depth, firstKey, layers, List.append_assoc, List.cons_append, ← Nat.add_assoc, next,
        addLayers, splitField_field, if_true]

theorem depth_le_layers (message : Message) : depth message ≤ (layers message).length := by
  induction message with
  | one ephemeral => exact Nat.le_refl 0
  | two first prologue ephemeral static ih =>
      simp only [depth, layers, List.length_append, List.length_cons]
      omega
  | three second static ih =>
      simp only [depth, layers, List.length_append, List.length_cons]
      omega

def plain : Codec where
  wire message := field (firstKey message) ++ layers message
  read bytes :=
    addLayers (splitField bytes).2.length (.one (splitField bytes).1) (splitField bytes).2
  read_wire message := by
    have fuel : (layers message).length =
        (layers message).length - depth message + depth message := by
      have enough := depth_le_layers message
      omega
    have whole := addLayers_layers message ((layers message).length - depth message) []
    rw [List.append_nil, ← fuel] at whole
    rw [splitField_field, whole]
    cases (layers message).length - depth message <;> rfl

end Codec

end Tenet
