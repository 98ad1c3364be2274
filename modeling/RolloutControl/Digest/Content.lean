import RolloutControl.Cluster.Object
import RolloutControl.Digest.Sha256
/-! Digests of what config maps and secrets hold. Every key and value is digested behind its length,
so no two lists of entries are written as the same bytes. -/

namespace RolloutControl

def textBytes (s : String) : Bytes := s.toUTF8.toList

namespace Digest

abbrev Entry := String × Bytes

def framed (bytes : Bytes) : Bytes := Sha256.bigEndian64 bytes.length ++ bytes

def encode (entries : List Entry) : Bytes :=
  entries.flatMap fun e => framed (textBytes e.1) ++ framed e.2

def ofEntries (entries : List Entry) : String := Sha256.hex (encode entries)

end Digest

namespace ConfigMap

def digestEntries (cm : ConfigMap) : List Digest.Entry :=
  ((cm.data.getD ∅).entries.map fun e => (e.1, textBytes e.2)) ++ (cm.binaryData.getD ∅).entries

def digest (cm : ConfigMap) : String := Digest.ofEntries cm.digestEntries

end ConfigMap

namespace Secret

def digestEntries (s : Secret) : List Digest.Entry :=
  (s.data.getD ∅).entries ++ (s.stringData.getD ∅).entries.map fun e => (e.1, textBytes e.2)

def digest (s : Secret) : String := Digest.ofEntries s.digestEntries

end Secret

end RolloutControl
