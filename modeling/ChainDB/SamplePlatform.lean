import ChainDB.Crypto
import ChainDB.WireMessages
import ChainDB.Library.Sha256

/-! A platform that runs: SHA-256, the wire format of the messages, and libsecp256k1 for one key
pair. The signatures of three digests are those that RFC 6979 gives for the key; any other
digest gets a stand-in. -/
namespace ChainDB
namespace Sample
open Effects

def number (size n : Nat) : Data size := ⟨Sha256.bigEndian size n,Sha256.bigEndianLength size n⟩

def sha256 (input : Bytes) : Hash := ⟨Sha256.digest input,Sha256.digestLength input⟩

def privateKey : PrivateKey := ⟨(List.range 32).map (fun i => (1 + i).toUInt8),by simp⟩

def publicKey : PublicKey :=
  number 33 0x0284bf7562262bbd6940085748f3be6afa52ae317155181ece31b66351ccffa4b0

def point : Data 64 := number 64
  0x84bf7562262bbd6940085748f3be6afa52ae317155181ece31b66351ccffa4b08cc43d63b2859d469fee15f31c9edb5324266e6fd0407e87382d60fc4511acd8

def signatures : List (Hash × Data 64) := [
  (number 32 0xc78650cdd7de835a486087c9b990d2a57c30bbbb37f6892e36ea1dcd5e1a130c,number 64
    0xb99318a0095b6a472db825741e141baafd31ef5d388872c504a199c093c2627e529b1354e452d247f6f53243919aca44d762b47c477d8bd766f4f6f77d881d58),
  (number 32 0xb79e7c1e93b534bc872663a121fa62f2ddc4430257873fa1b87012e29e00569e,number 64
    0xe623f15aa3faae62dac712de5cdfe6be1031cedd97625f37da8839ea414fb8783d2021bb1694d8dd95e154a708991a0e2b77d48e65403371f7757004c02f33ec),
  (number 32 0xc6d9ec4d5829fe56824d4d23d8f4e6d327e1eee5c60fda557d0a8beaa0a72d7c,number 64
    0x855bfece3bfc8dd5ff41f338d53739d73b012ab155f3d6a9f1cdfaf53d1fa7503fdf649c11d39f702e9e7370d6ef5cdfe6becddd4e3bd7be3c755ff058fcacf5)]

def signatureFor (hash : Hash) : Data 64 :=
  (signatures.lookup hash).getD ⟨hash.bytes ++ hash.bytes,by simp [hash.sized]⟩

def secp : Secp256k1Library where
  ecSeckeyVerify key := decide (key = privateKey)
  ecPubkeyCreate _ := some point
  ecPubkeySerialize _ := publicKey
  ecPubkeyParse key := if key = publicKey then some point else none
  ecdsaSign hash _ := some (signatureFor hash)
  ecdsaSignatureSerializeCompact signature := signature
  ecdsaSignatureParseCompact signature := some signature
  ecdsaVerify signature hash key := decide (signature = signatureFor hash ∧ key = point)

def platform : Platform where
  sha256 := sha256
  secp := secp
  header := wireCodec Blockchain.Header.schema
  block := wireCodec Blockchain.Block.schema
  request := wireCodec IPC.Request.schema
  response := wireCodec IPC.Response.schema

theorem headerLawful : platform.header.Lawful := wireLawful Blockchain.Header.schemaSound

theorem blockLawful : platform.block.Lawful := wireLawful Blockchain.Block.schemaSound

theorem requestLawful : platform.request.Lawful := wireLawful IPC.Request.schemaSound

theorem signaturesVerify : platform.SignaturesVerify := by
  intro key other hash signature _ paired signed
  cases paired
  cases signed
  exact ⟨point,signatureFor hash,rfl,rfl,by simp [platform,secp]⟩

/- Every primitive succeeds, and a generator writes consecutive bytes from `seed` on. -/
def steady (seed : Nat) : Draws := fun _ => ⟨fun _ => true,fun i => (seed + i).toUInt8⟩

end Sample
end ChainDB
