import PageReply.Bytes.Basic

/-!
# Page URLs

A page is addressed by a URL in canonical form: the fragment, which never reaches the server, is
dropped, and so is one question mark that then ends the text, the sign of an empty query. All else
counts byte for byte.
-/

namespace PageReply

namespace Bytes

/-- The part before the first hash sign; all of the text when there is none. -/
def beforeFragment (url : Bytes) : Bytes :=
  url.takeWhile (· ≠ Byte.hash)

/-- Drops a final question mark, one only. -/
def dropEmptyQuery (url : Bytes) : Bytes :=
  if url.getLast? = some Byte.question then url.dropLast else url

theorem hash_not_mem_beforeFragment (url : Bytes) : Byte.hash ∉ beforeFragment url := by
  intro h
  simpa using List.all_eq_true.1 List.all_takeWhile Byte.hash h

theorem mem_of_mem_dropEmptyQuery {url : Bytes} {b : UInt8} (h : b ∈ dropEmptyQuery url) :
    b ∈ url := by
  unfold dropEmptyQuery at h
  split at h
  · exact List.dropLast_subset url h
  · exact h

end Bytes

@[ext] structure Url where
  text : Bytes
  hash_not_mem : Byte.hash ∉ text
deriving DecidableEq, Repr

namespace Url

def empty : Url := ⟨[], List.not_mem_nil⟩

instance : Inhabited Url := ⟨empty⟩

/-- The page that a URL addresses. -/
def ofBytes (url : Bytes) : Url where
  text := url.beforeFragment.dropEmptyQuery
  hash_not_mem := fun h =>
    Bytes.hash_not_mem_beforeFragment url (Bytes.mem_of_mem_dropEmptyQuery h)

def isEmpty (u : Url) : Bool :=
  u.text.isEmpty

end Url

end PageReply
