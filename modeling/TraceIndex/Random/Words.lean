namespace TraceIndex

/-- A stream of random words: a key of eight words and how many words were taken. -/
structure Words where
  key : List UInt32
  taken : Nat
  deriving DecidableEq, Repr

namespace Words

def rotateLeft (x n : UInt32) : UInt32 := x <<< n ||| x >>> (32 - n)

def quarterRound (a b c d : UInt32) : UInt32 × UInt32 × UInt32 × UInt32 :=
  let a := a + b
  let d := rotateLeft (d ^^^ a) 16
  let c := c + d
  let b := rotateLeft (b ^^^ c) 12
  let a := a + b
  let d := rotateLeft (d ^^^ a) 8
  let c := c + d
  let b := rotateLeft (b ^^^ c) 7
  (a, b, c, d)

structure Block where
  row₀ : UInt32 × UInt32 × UInt32 × UInt32
  row₁ : UInt32 × UInt32 × UInt32 × UInt32
  row₂ : UInt32 × UInt32 × UInt32 × UInt32
  row₃ : UInt32 × UInt32 × UInt32 × UInt32

def columnRound : Block → Block
  | ⟨(a₀, a₁, a₂, a₃), (b₀, b₁, b₂, b₃), (c₀, c₁, c₂, c₃), (d₀, d₁, d₂, d₃)⟩ =>
    let (a₀, b₀, c₀, d₀) := quarterRound a₀ b₀ c₀ d₀
    let (a₁, b₁, c₁, d₁) := quarterRound a₁ b₁ c₁ d₁
    let (a₂, b₂, c₂, d₂) := quarterRound a₂ b₂ c₂ d₂
    let (a₃, b₃, c₃, d₃) := quarterRound a₃ b₃ c₃ d₃
    ⟨(a₀, a₁, a₂, a₃), (b₀, b₁, b₂, b₃), (c₀, c₁, c₂, c₃), (d₀, d₁, d₂, d₃)⟩

def diagonalRound : Block → Block
  | ⟨(a₀, a₁, a₂, a₃), (b₀, b₁, b₂, b₃), (c₀, c₁, c₂, c₃), (d₀, d₁, d₂, d₃)⟩ =>
    let (a₀, b₁, c₂, d₃) := quarterRound a₀ b₁ c₂ d₃
    let (a₁, b₂, c₃, d₀) := quarterRound a₁ b₂ c₃ d₀
    let (a₂, b₃, c₀, d₁) := quarterRound a₂ b₃ c₀ d₁
    let (a₃, b₀, c₁, d₂) := quarterRound a₃ b₀ c₁ d₂
    ⟨(a₀, a₁, a₂, a₃), (b₀, b₁, b₂, b₃), (c₀, c₁, c₂, c₃), (d₀, d₁, d₂, d₃)⟩

def rounds : Nat → Block → Block
  | 0, s => s
  | n + 1, s => rounds n (diagonalRound (columnRound s))

def Block.toList : Block → List UInt32
  | ⟨(a₀, a₁, a₂, a₃), (b₀, b₁, b₂, b₃), (c₀, c₁, c₂, c₃), (d₀, d₁, d₂, d₃)⟩ =>
    [a₀, a₁, a₂, a₃, b₀, b₁, b₂, b₃, c₀, c₁, c₂, c₃, d₀, d₁, d₂, d₃]

def startBlock (key : List UInt32) (position : Nat) : Block :=
  let k (i : Nat) : UInt32 := key.getD i 0
  ⟨(0x61707865, 0x3320646e, 0x79622d32, 0x6b206574), (k 0, k 1, k 2, k 3), (k 4, k 5, k 6, k 7),
    (UInt32.ofNat position, UInt32.ofNat (position / UInt32.size), 0, 0)⟩

/-- The sixteen words of a block of the ChaCha stream with twelve rounds. -/
def block (key : List UInt32) (position : Nat) : List UInt32 :=
  let start := startBlock key position
  List.zipWith (· + ·) (rounds 6 start).toList start.toList

/-- The word at an index of the stream, which repeats after `2 ^ 68` words. -/
def at? (key : List UInt32) (index : Nat) : Option UInt32 := (block key (index / 16))[index % 16]?

def next (s : Words) : UInt32 × Words :=
  ((at? s.key s.taken).getD 0, { s with taken := s.taken + 1 })

def stepSeed (state : UInt64) : UInt64 := state * 6364136223846793005 + 11634580027462260723

/-- The output of one step of the seed's own generator: a shifted word, rotated to the right by
the top five bits of the state. -/
def seedWord (state : UInt64) : UInt32 :=
  let x := ((state >>> 18 ^^^ state) >>> 27).toUInt32
  let n := (state >>> 59).toUInt32
  x >>> n ||| x <<< ((32 - n) % 32)

def seedKey : Nat → UInt64 → List UInt32
  | 0, _ => []
  | n + 1, state => seedWord (stepSeed state) :: seedKey n (stepSeed state)

def seeded (seed : UInt64) : Words := ⟨seedKey 8 seed, 0⟩

end Words

end TraceIndex
