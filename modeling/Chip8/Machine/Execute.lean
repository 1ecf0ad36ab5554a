import Chip8.Machine.Basic

set_option autoImplicit false

namespace Chip8

namespace Exec

def flagOf (condition : Bool) : UInt8 :=
  if condition then 1 else 0

def registersTo : Nat → Exec (List UInt8)
  | 0 => return [← register 0]
  | x + 1 => do
    let lower ← registersTo x
    return lower ++ [← register (x + 1)]

def setRegisters : Nat → List UInt8 → Exec Unit
  | _, [] => pure ()
  | x, value :: rest => do
    setRegister x value
    setRegisters (x + 1) rest

def offset (target : UInt16) (amount : UInt8) : Exec UInt16 :=
  if target.toNat + amount.toNat < UInt16.size then pure (target + amount.toUInt16)
  else trap .overflow

-- VF is set before the result, but after it by the shifts, which shows when VF is the destination.
def operate (op : Operation) (x y : Fin 16) : Exec Unit :=
  match op with
  | .copy => do
    setRegister x (← register y)
  | .or => do
    let vx ← register x
    let vy ← register y
    setRegister x (vx ||| vy)
  | .and => do
    let vx ← register x
    let vy ← register y
    setRegister x (vx &&& vy)
  | .xor => do
    let vx ← register x
    let vy ← register y
    setRegister x (vx ^^^ vy)
  | .add => do
    let vx ← register x
    let vy ← register y
    setFlag (flagOf (255 < vx.toNat + vy.toNat))
    setRegister x (vx + vy)
  | .sub => do
    let vx ← register x
    let vy ← register y
    setFlag (flagOf (vy < vx))
    setRegister x (vx - vy)
  | .shiftRight => do
    let vy ← register y
    setRegister x (vy >>> 1)
    setFlag (vy &&& 0x01)
  | .subFrom => do
    let vx ← register x
    let vy ← register y
    setFlag (flagOf (vx < vy))
    setRegister x (vy - vx)
  | .shiftLeft => do
    let vy ← register y
    setRegister x (vy <<< 1)
    setFlag (vy &&& 0x80)

def blit (sprite : List UInt8) (x y : Nat) : Exec Bool := fun m =>
  match m.frame.draw sprite x y with
  | .ok (frame, collided) => .ok collided { m with frame }
  | .error t => .error (.trap t) m

def draw (x y rows : Fin 16) : Exec Unit := do
  let vx ← register x
  let vy ← register y
  let start ← index
  let sprite ← inspect (·.readSpan start.toNat rows)
  let collided ← blit sprite vx.toNat vy.toNat
  setFlag (flagOf collided)

def awaitKey (x : Fin 16) : Exec Progress := do
  match (← get).keypad.first with
  | some key =>
    setRegister x (UInt8.ofNat key)
    return .executed
  | none =>
    let _ ← register x
    return .awaitingKey x

def save (x : Fin 16) : Exec Unit := do
  let values ← registersTo x
  let start ← index
  update (·.writeSpan start.toNat values)

def restore (x : Fin 16) : Exec Unit := do
  let start ← index
  let values ← inspect (·.readSpan start.toNat (x + 1))
  setRegisters 0 values

def decimalDigits (n : UInt8) : List UInt8 :=
  [n / 100, n / 10 % 10, n % 10]

def saveDigits (x : Fin 16) : Exec Unit := do
  let value ← register x
  let start ← index
  update (·.writeSpan start.toNat (decimalDigits value))

def skipIfPair (x y : Fin 16) (test : UInt8 → UInt8 → Bool) : Exec Unit := do
  let vx ← register x
  let vy ← register y
  skipIf (test vx vy)

def skipIfKey (x : Fin 16) (held : Bool) : Exec Unit := do
  let key ← register x
  skipIf ((← get).keypad.isDown key == held)

def setRandom (x : Fin 16) (mask : UInt8) : Exec Unit := do
  let byte ← randomByte
  setRegister x (byte &&& mask)

def done (effect : Exec Unit) : Exec Progress := do
  effect
  return .executed

def word (target : Fin 4096) : UInt16 :=
  UInt16.ofNat target

def execute : Instruction → Exec Progress
  | .clear => done do modify fun m => { m with frame := .blank }
  | .leave => done do update Store.leave
  | .jump target => done do jump (word target)
  | .call target => done do update (·.call (word target))
  | .skipEq x value => done do skipIf ((← register x) == value)
  | .skipNe x value => done do skipIf ((← register x) != value)
  | .skipEqReg x y => done do skipIfPair x y (· == ·)
  | .set x value => done do setRegister x value
  | .add x value => done do setRegister x ((← register x) + value)
  | .operate op x y => done do operate op x y
  | .skipNeReg x y => done do skipIfPair x y (· != ·)
  | .setIndex target => done do setIndex (word target)
  | .jumpFrom target => done do jump (← offset (word target) (← register 0))
  | .random x mask => done do setRandom x mask
  | .draw x y rows => done do draw x y rows
  | .skipHeld x => done do skipIfKey x true
  | .skipFree x => done do skipIfKey x false
  | .readDelay x => done do setRegister x (← get).store.delay
  | .awaitKey x => awaitKey x
  | .setDelay x => done do
    let value ← register x
    change fun s => { s with delay := value }
  | .setSound x => done do
    let value ← register x
    change fun s => { s with sound := value }
  | .addIndex x => done do
    let value ← register x
    setIndex ((← index) + value.toUInt16)
  | .glyph x => done do
    let digit ← register x
    update (·.selectGlyph digit)
  | .digits x => done do saveDigits x
  | .save x => done do save x
  | .restore x => done do restore x

end Exec

end Chip8
