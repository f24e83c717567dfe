import ConvoScore.Schema.Conversation
import Mathlib.Data.List.Lex
import Mathlib.Data.List.Nodup
import Mathlib.Data.Char

namespace ConvoScore.Ingest

/-- An item is one entry of a storage listing; the size and the etag may be missing. -/
structure Item where
  key : Text
  size : Option Nat
  etag : Option Text
  deriving DecidableEq

/-- A bucket holds one item for each key, in key order. -/
structure Bucket where
  items : List Item
  sorted : items.Pairwise fun first second => first.key < second.key

structure StoredObject where
  key : Text
  etag : Text
  sizeBytes : Nat
  deriving DecidableEq

/-- A store looks at one prefix of one bucket; an unreachable bucket has an error text instead. -/
structure ObjectStore where
  bucket : Text
  incoming : Text
  contents : Except Text Bucket

/-- `str.strip` with a double quote drops the quotes at both ends. -/
def stripQuotes (text : Text) : Text :=
  let quote : Char → Bool := fun letter => letter = Char.ofNat 34
  ((text.dropWhile quote).reverse.dropWhile quote).reverse

/-- The listing stops after this many keys in total. -/
def maxListedKeys : Nat := 1000

namespace Item

/-- The key ends with a slash, so the item is a directory placeholder. -/
def placeholder (item : Item) : Bool := item.key.getLast? = some '/'

/-- A placeholder and an empty object carry no conversation. -/
def candidate (item : Item) : Bool := !item.placeholder && item.size.getD 0 ≠ 0

def stored (item : Item) : StoredObject where
  key := item.key
  etag := stripQuotes (item.etag.getD [])
  sizeBytes := item.size.getD 0

end Item

namespace ObjectStore

def uri (store : ObjectStore) (key : Text) : Text :=
  "s3://".toList ++ store.bucket ++ "/".toList ++ key

/-- The keys that a request with this prefix yields. -/
def incomingItems (store : ObjectStore) (bucket : Bucket) : List Item :=
  bucket.items.filter fun item => store.incoming.isPrefixOf item.key

/-- The paginator yields the first keys; the loop drops those that are no candidates. -/
def listObjects (store : ObjectStore) (maxKeys : Nat) : Except Text (List StoredObject) :=
  match store.contents with
  | .error text =>
      .error ("could not list ".toList ++ store.uri store.incoming ++ ": ".toList ++ text)
  | .ok bucket =>
      .ok (((store.incomingItems bucket).take maxKeys).filter Item.candidate |>.map Item.stored)

end ObjectStore

variable {bucket : Bucket} {store : ObjectStore} {first second : Item}

/-- A bucket stores at most one item under a key. -/
theorem Bucket.eq_of_key (one : first ∈ bucket.items) (other : second ∈ bucket.items)
    (same : first.key = second.key) : first = second := by
  have distinct : (bucket.items.map Item.key).Nodup := by
    apply List.Pairwise.map Item.key _ bucket.sorted
    intro earlier later ordered
    exact ne_of_lt ordered
  exact List.inj_on_of_nodup_map distinct one other same

/-- A listed object comes from a candidate among the first keys. -/
theorem ObjectStore.mem_listObjects {maxKeys : Nat} {objects : List StoredObject}
    {stored : StoredObject} (reachable : store.contents = .ok bucket)
    (listed : store.listObjects maxKeys = .ok objects) :
    stored ∈ objects ↔ ∃ item ∈ (store.incomingItems bucket).take maxKeys,
      item.candidate = true ∧ item.stored = stored := by
  rw [listObjects, reachable, Except.ok.injEq] at listed
  subst listed
  simp only [List.mem_map, List.mem_filter, and_assoc]

end ConvoScore.Ingest
