/-!
# BLAKE3

The hash of a sequence of bytes. The input is cut into chunks of 1024 bytes, each chunk is
compressed in blocks of 64 bytes, and the chunks are the leaves of a binary tree in which every left
subtree is full. `hash` gives the 32 bytes of the root.
-/

namespace SiteCatalog.Blake3

/-- A chaining value of eight words. -/
abbrev Chain := Vector UInt32 8

/-- A block or a state of sixteen words. -/
abbrev Block := Vector UInt32 16

/-- The initial chaining value. -/
def initial : Chain :=
  #v[0x6A09E667, 0xBB67AE85, 0x3C6EF372, 0xA54FF53A, 0x510E527F, 0x9B05688C, 0x1F83D9AB, 0x5BE0CD19]

/-- Marks the first block of a chunk. -/
def chunkStart : UInt32 := 1

/-- Marks the last block of a chunk. -/
def chunkEnd : UInt32 := 2

/-- Marks the block of an inner node. -/
def parent : UInt32 := 4

/-- Marks the block of the root. -/
def root : UInt32 := 8

/-- The word rotated to the right. -/
def rotr (x : UInt32) (n : UInt32) : UInt32 :=
  (x >>> n) ||| (x <<< (32 - n))

/-- Mixes two words of the message into four words of the state. -/
def mix (s : Block) (a b c d : Fin 16) (x y : UInt32) : Block :=
  let s := s.set a (s[a] + s[b] + x)
  let s := s.set d (rotr (s[d] ^^^ s[a]) 16)
  let s := s.set c (s[c] + s[d])
  let s := s.set b (rotr (s[b] ^^^ s[c]) 12)
  let s := s.set a (s[a] + s[b] + y)
  let s := s.set d (rotr (s[d] ^^^ s[a]) 8)
  let s := s.set c (s[c] + s[d])
  s.set b (rotr (s[b] ^^^ s[c]) 7)

/-- Mixes a message into a state, first the columns and then the diagonals. -/
def round (s m : Block) : Block :=
  let s := mix s 0 4 8 12 m[0] m[1]
  let s := mix s 1 5 9 13 m[2] m[3]
  let s := mix s 2 6 10 14 m[4] m[5]
  let s := mix s 3 7 11 15 m[6] m[7]
  let s := mix s 0 5 10 15 m[8] m[9]
  let s := mix s 1 6 11 12 m[10] m[11]
  let s := mix s 2 7 8 13 m[12] m[13]
  mix s 3 4 9 14 m[14] m[15]

/-- The order in which the next round takes the words of the message. -/
def permute (m : Block) : Block :=
  #v[m[2], m[6], m[3], m[10], m[7], m[0], m[4], m[13],
    m[1], m[11], m[12], m[5], m[9], m[14], m[15], m[8]]

/-- A number of rounds. -/
def rounds : Nat → Block → Block → Block
  | 0, s, _ => s
  | n + 1, s, m => rounds n (round s m) (permute m)

/-- What a node of the tree compresses. -/
structure Node where
  chain : Chain
  block : Block
  counter : UInt64
  length : UInt32
  flags : UInt32

/-- The chaining value of a node. -/
def Node.compress (n : Node) (extra : UInt32) : Chain :=
  let v := n.chain
  let s := rounds 7 #v[v[0], v[1], v[2], v[3], v[4], v[5], v[6], v[7],
    initial[0], initial[1], initial[2], initial[3],
    n.counter.toUInt32, (n.counter >>> 32).toUInt32, n.length, n.flags ||| extra] n.block
  Vector.ofFn fun i => s[i.castLE (by omega : 8 ≤ 16)] ^^^ s[i.natAdd 8]

/-- The word of four bytes, the lowest first; missing bytes are zero. -/
def word (bytes : List UInt8) (i : Nat) : UInt32 :=
  let byte (j : Nat) : UInt32 := (bytes.getD (4 * i + j) 0).toUInt32
  byte 0 ||| (byte 1 <<< 8) ||| (byte 2 <<< 16) ||| (byte 3 <<< 24)

/-- The words of a block of up to 64 bytes. -/
def block (bytes : List UInt8) : Block :=
  Vector.ofFn fun i => word bytes i

/-- The last node of a chunk; `fuel` bounds the number of blocks before it. -/
def chunkFrom (index : Nat) : Nat → Chain → UInt32 → List UInt8 → Node
  | 0, chain, flags, bytes =>
    ⟨chain, block bytes, UInt64.ofNat index, UInt32.ofNat bytes.length, flags ||| chunkEnd⟩
  | fuel + 1, chain, flags, bytes =>
    if bytes.length ≤ 64 then
      ⟨chain, block bytes, UInt64.ofNat index, UInt32.ofNat bytes.length, flags ||| chunkEnd⟩
    else
      let node : Node := ⟨chain, block (bytes.take 64), UInt64.ofNat index, 64, flags⟩
      chunkFrom index fuel (node.compress 0) 0 (bytes.drop 64)

/-- The node of the chunk with an index. -/
def chunk (index : Nat) (bytes : List UInt8) : Node :=
  chunkFrom index 16 initial chunkStart bytes

/-- The node above two subtrees. -/
def Node.join (left right : Node) : Node :=
  ⟨initial, (left.compress 0 ++ right.compress 0), 0, 64, parent⟩

/-- The tree of some bytes whose first chunk has an index; `fuel` bounds its height. A left subtree
holds the largest power of two of chunks that leaves something on the right. -/
def tree : Nat → Nat → List UInt8 → Node
  | 0, index, bytes => chunk index bytes
  | fuel + 1, index, bytes =>
    if bytes.length ≤ 1024 then chunk index bytes
    else
      let left := Nat.pow 2 (Nat.log2 ((bytes.length - 1) / 1024))
      (tree fuel index (bytes.take (1024 * left))).join
        (tree fuel (index + left) (bytes.drop (1024 * left)))

/-- The four bytes of a word, the lowest first. -/
def wordBytes (w : UInt32) : List UInt8 :=
  [w.toUInt8, (w >>> 8).toUInt8, (w >>> 16).toUInt8, (w >>> 24).toUInt8]

/-- The hash of some bytes. -/
def hash (bytes : List UInt8) : List UInt8 :=
  ((tree 64 0 bytes).compress root).toList.flatMap wordBytes

end SiteCatalog.Blake3
