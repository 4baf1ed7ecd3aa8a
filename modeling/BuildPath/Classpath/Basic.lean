import BuildPath.Digest.Blake3
import BuildPath.Path.Normal

/-!
# Classpaths

Files in order, without repetition. A fingerprint tells two classpaths apart: it is the hash of
their texts, each ended by a zero byte, so that no boundary between two files can shift unnoticed.
-/

namespace BuildPath

/-- The files of a classpath, normalized and in order. -/
structure Classpath where
  files : List Path

namespace Classpath

/-- Whether a file is on the classpath, however its path is written. -/
def contains (classpath : Classpath) (path : Path) : Bool :=
  classpath.files.any (· == path.normalize)

/-- The bytes that a fingerprint is made of. -/
def bytes (paths : List Path) : List UInt8 :=
  paths.flatMap fun path => path.text.toUTF8.toList ++ [0]

/-- The fingerprint of a classpath, in hexadecimal digits. -/
def fingerprint (classpath : Classpath) : String :=
  Blake3.text (Blake3.hash (bytes classpath.files))

end Classpath

end BuildPath
