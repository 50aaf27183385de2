import ContractMachine.Identifier

/-! The BLAKE3 hash of a byte string. Chunks of 1024 bytes are compressed block by block; their
chaining values are then joined in pairs, level by level, up to one root. -/

namespace ContractMachine.Blake3

/-- Eight words that carry the state from one compression to the next. -/
abbrev Chain := Vector UInt32 8

/-- Sixteen words: a block of the message, or the state inside a compression. -/
abbrev Block := Vector UInt32 16

def initial : Chain :=
  #v[0x6a09e667, 0xbb67ae85, 0x3c6ef372, 0xa54ff53a, 0x510e527f, 0x9b05688c, 0x1f83d9ab, 0x5be0cd19]

/-! ### Compression -/

def rotateRight (x n : UInt32) : UInt32 := (x >>> n) ||| (x <<< (32 - n))

/-- Mix two message words into one column or diagonal of the state. -/
def mix (v : Block) (a b c d : Fin 16) (x y : UInt32) : Block :=
  let va := v[a] + v[b] + x
  let vd := rotateRight (v[d] ^^^ va) 16
  let vc := v[c] + vd
  let vb := rotateRight (v[b] ^^^ vc) 12
  let va := va + vb + y
  let vd := rotateRight (vd ^^^ va) 8
  let vc := vc + vd
  let vb := rotateRight (vb ^^^ vc) 7
  (((v.set a va).set b vb).set c vc).set d vd

/-- Mix the four columns, then the four diagonals. -/
def round (v m : Block) : Block :=
  let v := mix v 0 4 8 12 m[0] m[1]
  let v := mix v 1 5 9 13 m[2] m[3]
  let v := mix v 2 6 10 14 m[4] m[5]
  let v := mix v 3 7 11 15 m[6] m[7]
  let v := mix v 0 5 10 15 m[8] m[9]
  let v := mix v 1 6 11 12 m[10] m[11]
  let v := mix v 2 7 8 13 m[12] m[13]
  mix v 3 4 9 14 m[14] m[15]

/-- The order of the message words in the next round. -/
def permute (m : Block) : Block :=
  #v[m[2], m[6], m[3], m[10], m[7], m[0], m[4], m[13],
    m[1], m[11], m[12], m[5], m[9], m[14], m[15], m[8]]

def rounds : Nat → Block → Block → Block
  | 0, v, _ => v
  | n + 1, v, m => rounds n (round v m) (permute m)

/-- What a compression is part of, as bits. -/
abbrev Flags := UInt32

def chunkStart : Flags := 1

def chunkEnd : Flags := 2

def parent : Flags := 4

def root : Flags := 8

def compress (chain : Chain) (m : Block) (counter length : Nat) (flags : Flags) : Chain :=
  let v : Block :=
    #v[chain[0], chain[1], chain[2], chain[3], chain[4], chain[5], chain[6], chain[7],
      initial[0], initial[1], initial[2], initial[3],
      UInt32.ofNat counter, UInt32.ofNat (counter / 4294967296), UInt32.ofNat length, flags]
  let v := rounds 7 v m
  #v[v[0] ^^^ v[8], v[1] ^^^ v[9], v[2] ^^^ v[10], v[3] ^^^ v[11],
    v[4] ^^^ v[12], v[5] ^^^ v[13], v[6] ^^^ v[14], v[7] ^^^ v[15]]

/-! ### Words and bytes -/

/-- A word from at most four bytes, least significant first. -/
def word (bytes : Bytes) : UInt32 :=
  bytes.foldr (fun b n => n * 256 + b.toUInt32) 0

def wordBytes (w : UInt32) : Bytes :=
  [w.toUInt8, (w >>> 8).toUInt8, (w >>> 16).toUInt8, (w >>> 24).toUInt8]

/-- The words of at most 64 bytes; missing bytes are zero. -/
def blockOf (bytes : Bytes) : Block :=
  Vector.ofFn fun i => word ((bytes.drop (4 * i.val)).take 4)

/-- Cut into pieces of `size + 1` bytes; only the last may be shorter. There is always one. -/
def pieces (size : Nat) (bytes : Bytes) : List Bytes :=
  match h : bytes.drop (size + 1) with
  | [] => [bytes]
  | b :: rest => bytes.take (size + 1) :: pieces size (b :: rest)
termination_by bytes.length
decreasing_by
  have hlength := congrArg List.length h
  simp only [List.length_drop, List.length_cons] at hlength ⊢
  omega

/-! ### Chunks and the tree -/

/-- Compress the blocks of a chunk. `flags` mark the next block, `last` the final one. -/
def compressBlocks (counter : Nat) (last : Flags) : Flags → Chain → List Bytes → Chain
  | _, chain, [] => chain
  | flags, chain, [b] =>
    compress chain (blockOf b) counter b.length (flags ||| chunkEnd ||| last)
  | flags, chain, b :: rest =>
    compressBlocks counter last 0 (compress chain (blockOf b) counter b.length flags) rest

def chunkChain (counter : Nat) (last : Flags) (chunk : Bytes) : Chain :=
  compressBlocks counter last chunkStart initial (pieces 63 chunk)

def join (flags : Flags) (left right : Chain) : Chain :=
  compress initial (left ++ right) 0 64 (parent ||| flags)

/-- Join neighbours; an odd one at the end moves up alone. -/
def level : List Chain → List Chain
  | left :: right :: rest => join 0 left right :: level rest
  | rest => rest

theorem length_level (nodes : List Chain) : (level nodes).length = (nodes.length + 1) / 2 := by
  fun_induction level nodes with
  | case1 left right rest ih => simp only [List.length_cons, ih]; omega
  | case2 rest h =>
    match rest, h with
    | [], _ => rfl
    | [_], _ => simp
    | _ :: _ :: _, h => exact absurd rfl (h _ _ _)

/-- The root above two or more nodes. -/
def tree (nodes : List Chain) : Chain :=
  match nodes with
  | [] => initial
  | [node] => node
  | [left, right] => join root left right
  | a :: b :: c :: rest => tree (level (a :: b :: c :: rest))
termination_by nodes.length
decreasing_by
  simp only [length_level, List.length_cons]
  omega

def rootChain (bytes : Bytes) : Chain :=
  match pieces 1023 bytes with
  | [chunk] => chunkChain 0 root chunk
  | chunks => tree (chunks.zipIdx.map fun (chunk, counter) => chunkChain counter 0 chunk)

def hash (bytes : Bytes) : FixedBytes 32 where
  bytes := (rootChain bytes).toList.flatMap wordBytes
  length_bytes := by simp [List.length_flatMap, wordBytes, List.map_const']

end ContractMachine.Blake3

namespace ContractMachine

/-- The id of a contract with this bytecode: the beginning of its hash. -/
def ContractId.ofBytecode (bytecode : Bytes) : ContractId where
  bytes := (Blake3.hash bytecode).bytes.take addressLength
  length_bytes := by simp [(Blake3.hash bytecode).length_bytes, addressLength]

end ContractMachine
