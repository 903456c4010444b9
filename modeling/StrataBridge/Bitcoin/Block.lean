import StrataBridge.Primitives.Params

/-!
# Blocks and headers

A block as the parts of the bridge read it: the duty tracker reads its height and its transactions,
the proof its header, and the ZMQ client also how it hangs on the block before it.
-/

namespace StrataBridge

structure Block where
  bip34BlockHeight : Option BitcoinBlockHeight
  txdata : List Transaction
  deriving DecidableEq, Repr

def Block.height (block : Block) : BitcoinBlockHeight := block.bip34BlockHeight.getD 0

/-- The header of a block: the Merkle root of its transactions, and the rest. -/
structure Header where
  merkleRoot : BitVec 256
  code : ℕ
  deriving DecidableEq, Repr

structure BlockHash where
  hash : BitVec 256
  deriving DecidableEq, Repr

/-- A block with its header, the hash of its header, and the hash by which the header names the
block before it. -/
structure ChainBlock extends Block where
  header : Header
  blockHash : BlockHash
  prevBlockhash : BlockHash
  deriving DecidableEq, Repr

end StrataBridge
