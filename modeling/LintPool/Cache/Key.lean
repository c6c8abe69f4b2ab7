import LintPool.Hash.Blake2b

/-!
# Cache keys

What a file's analysis comes to depends on the rules, the level, the path and the content. All four
make up the text whose hash is the key of the cached outcome.

## Main definitions

* `LintPool.Cache.Subject` : what is analysed.
* `LintPool.Cache.Subject.text` : the text that is hashed.
* `LintPool.Cache.Subject.key` : the key.
-/

namespace LintPool.Cache

/-- What an outcome depends on. -/
structure Subject where
  /-- The version of the rules. -/
  version : Bytes
  level : Int64
  file : Bytes
  content : Bytes
  deriving DecidableEq

/-- The text that stands for a subject: its parts, each but the last one closed by a zero byte. -/
def Subject.text (s : Subject) : Bytes :=
  s.version ++ 0 :: (Bytes.decimal s.level.toInt ++ 0 :: (s.file ++ 0 :: s.content))

/-- The key of a subject under a hash function. -/
def Subject.key (hash : Bytes → Bytes) (s : Subject) : Bytes := hash s.text

/-- The name of a key in a store that is shared with other programs. -/
def sharedName (key : Bytes) : Bytes := utf8 "phpscan:result:" ++ key

end LintPool.Cache
