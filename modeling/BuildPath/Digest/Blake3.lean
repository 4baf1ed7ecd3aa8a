/-!
# BLAKE3

The unkeyed hash with 32 bytes of output. The input is cut into chunks of 1024 bytes and those into
blocks of 64; the blocks of a chunk are compressed one after the other, and the chunks are combined
pairwise, level by level, an odd one left for the next level. Every compression that is not the last
contributes eight words to the next one; the last is marked as the root and gives the digest.
-/

namespace BuildPath.Blake3

/-- The value that stands between compressions. -/
abbrev Chain := Vector UInt32 8

/-- The words of a block, and the working state of a compression. -/
abbrev Block := Vector UInt32 16

/-- The initial value. -/
def start : Chain :=
  #v[0x6A09E667, 0xBB67AE85, 0x3C6EF372, 0xA54FF53A, 0x510E527F, 0x9B05688C, 0x1F83D9AB, 0x5BE0CD19]

/-- The mark of the first block of a chunk. The marks of a compression are added up. -/
def chunkStart : UInt32 := 1

/-- The mark of the last block of a chunk. -/
def chunkEnd : UInt32 := 2

/-- The mark of a node that combines two others. -/
def parentNode : UInt32 := 4

/-- The mark of the last compression of all. -/
def rootNode : UInt32 := 8

/-- A word turned to the right. -/
def rotate (word amount : UInt32) : UInt32 :=
  (word >>> amount) ||| (word <<< (32 - amount))

/-- Mixes two words of the message into four words of the state. -/
def mix (state : Block) (a b c d : Fin 16) (first second : UInt32) : Block :=
  let wordA := state[a] + state[b] + first
  let wordD := rotate (state[d] ^^^ wordA) 16
  let wordC := state[c] + wordD
  let wordB := rotate (state[b] ^^^ wordC) 12
  let wordA := wordA + wordB + second
  let wordD := rotate (wordD ^^^ wordA) 8
  let wordC := wordC + wordD
  let wordB := rotate (wordB ^^^ wordC) 7
  (((state.set a wordA).set b wordB).set c wordC).set d wordD

/-- One round: the columns of the state, then its diagonals. -/
def round (message state : Block) : Block :=
  let state := mix state 0 4 8 12 message[0] message[1]
  let state := mix state 1 5 9 13 message[2] message[3]
  let state := mix state 2 6 10 14 message[4] message[5]
  let state := mix state 3 7 11 15 message[6] message[7]
  let state := mix state 0 5 10 15 message[8] message[9]
  let state := mix state 1 6 11 12 message[10] message[11]
  let state := mix state 2 7 8 13 message[12] message[13]
  mix state 3 4 9 14 message[14] message[15]

/-- The order of the message words in the next round. -/
def permute (message : Block) : Block :=
  #v[message[2], message[6], message[3], message[10], message[7], message[0], message[4],
    message[13], message[1], message[11], message[12], message[5], message[9], message[14],
    message[15], message[8]]

/-- A number of rounds, the message permuted between them. -/
def rounds : Nat → Block → Block → Block
  | 0, _, state => state
  | count + 1, message, state => rounds count (permute message) (round message state)

/-- What goes into one compression. -/
structure Node where
  chain : Chain
  message : Block
  counter : Nat
  length : Nat
  marks : UInt32

/-- The first eight words that a compression gives. -/
def Node.compress (node : Node) : Chain :=
  let counter := node.counter.toUInt64
  let initial : Block :=
    (node.chain ++ (#v[start[0], start[1], start[2], start[3], counter.toUInt32,
      (counter >>> 32).toUInt32, node.length.toUInt32, node.marks] : Chain)).cast (by decide)
  let final := rounds 7 node.message initial
  Vector.ofFn fun index : Fin 8 => final[index.val] ^^^ final[index.val + 8]

/-- The digest that a node gives as the root. -/
def Node.digest (node : Node) : Chain :=
  { node with marks := node.marks ||| rootNode }.compress

/-- A list cut into pieces of a length, the last one possibly shorter. -/
def pieces {Item : Type} (length : Nat) (items : List Item) : List (List Item) :=
  if length = 0 ∨ items.length ≤ length then [items]
  else items.take length :: pieces length (items.drop length)
termination_by items.length
decreasing_by
  simp only [List.length_drop]
  omega

/-- Four bytes, the lowest first, as a word. -/
def word (bytes : List UInt8) : UInt32 :=
  bytes.foldr (fun byte rest => byte.toUInt32 ||| (rest <<< 8)) 0

/-- The words of at most 64 bytes, filled up with zeros. -/
def message (bytes : List UInt8) : Block :=
  Vector.ofFn fun index : Fin 16 => word ((bytes.drop (4 * index.val)).take 4)

/-- The node of the last block of a chunk, after the blocks before it were compressed. -/
def chunkNode (counter : Nat) (chain : Chain) (marks : UInt32) : List (List UInt8) → Node
  | [] => ⟨chain, message [], counter, 0, marks ||| chunkEnd⟩
  | [last] => ⟨chain, message last, counter, last.length, marks ||| chunkEnd⟩
  | block :: blocks =>
    let node : Node := ⟨chain, message block, counter, block.length, marks⟩
    chunkNode counter node.compress 0 blocks

/-- The node that combines two others. -/
def parent (left right : Node) : Node :=
  ⟨start, (left.compress ++ right.compress).cast (by decide), 0, 64, parentNode⟩

/-- The parents of neighbouring nodes, an odd last one kept. -/
def pairUp : List Node → List Node
  | left :: right :: rest => parent left right :: pairUp rest
  | rest => rest

/-- A level has at most half as many nodes as the one below, rounded up. -/
theorem length_pairUp_le (nodes : List Node) : 2 * (pairUp nodes).length ≤ nodes.length + 1 := by
  fun_induction pairUp nodes with
  | case1 left right rest ih =>
    simp only [List.length_cons]
    omega
  | case2 rest notTwo =>
    match rest, notTwo with
    | [], _ => simp
    | [_], _ => simp
    | left :: right :: more, notTwo => exact absurd rfl (notTwo left right more)

/-- The node at the top of the tree over these nodes. -/
def top (first : Node) (rest : List Node) : Node :=
  match rest with
  | [] => first
  | second :: more => top (parent first second) (pairUp more)
termination_by rest.length
decreasing_by
  have shorter := length_pairUp_le more
  simp only [List.length_cons]
  omega

/-- The hash of some bytes. -/
def hash (bytes : List UInt8) : Chain :=
  let chunks := (pieces 1024 bytes).zipIdx.map fun (chunk, index) =>
    chunkNode index start chunkStart (pieces 64 chunk)
  match chunks with
  | [] => (chunkNode 0 start chunkStart []).digest
  | first :: rest => (top first rest).digest

/-- The two digits of a byte. -/
def byteText (byte : Nat) : List Char :=
  [Nat.digitChar (byte / 16), Nat.digitChar (byte % 16)]

/-- The bytes of words, the lowest of each first, in hexadecimal digits. -/
def text (chain : Chain) : String :=
  String.ofList (chain.toList.flatMap fun word =>
    [0, 8, 16, 24].flatMap fun shift => byteText ((word >>> shift).toNat % 256))

end BuildPath.Blake3
