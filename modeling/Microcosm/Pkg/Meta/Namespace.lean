import Mathlib.Data.List.Forall2
import Microcosm.Pkg.Meta.Etcd

/-!
# The namespace of a tenant in the metastore

`pkg/meta/namespace/kv.go` and `util.go`, over the etcd implementation. A tenant's
client puts the prefix `tenantID ++ "/"` in front of every key it sends and strips it
from every key it returns: `prefixOp` rewrites the key and the range end of an `Op` by
`prefixInterval` and keeps its flags, and the response's keys lose as many bytes as the
prefix has.

`covers_prefixInterval` is what makes the namespace work: the range that
`prefixInterval` produces covers exactly the prefixed keys of the range it was given,
by etcd's conventions. Behind the namespace, however, `getEtcdOp` builds the etcd range
again from the flags. Under `WithPrefix` clientv3 recomputes the same end
(`prefixInterval_getPrefix`), so an operation with no option, with `WithPrefix` or with
`WithRange` reaches exactly the prefixed keys of the keys it reaches without the
namespace (`getEtcdOp_prefixOp_translates`). Under `WithFromKey` clientv3 sets the end to
`"\x00"` and drops the end `prefixInterval` computed: the operation reaches every key from
the prefixed key on, the keys of all tenants sorted after this one included
(`fromKey_prefixOp_reaches`).
-/

namespace Microcosm

namespace Meta

open KeyRange

/-- `MakeNamespacePrefix`: the tenant ID and a `/`. -/
def makeNamespacePrefix (tenantID : List UInt8) : List UInt8 :=
  tenantID ++ [0x2f]

/-- The loop of `prefixInterval` at the edge of the keyspace, on the prefix read from its
last byte: bytes are incremented from the end until one does not wrap around to `0`;
`false` if all of them did. -/
def incrementWrapping : List UInt8 → List UInt8 × Bool
  | [] => ([], false)
  | b :: rest =>
      if b + 1 ≠ 0 then ((b + 1) :: rest, true)
      else
        let r := incrementWrapping rest
        (0 :: r.1, r.2)

/-- `prefixInterval`: the key and the range end with the prefix `pfx`. An end `"\x00"`
becomes the least key above the prefix, or `"\x00"` again if the prefix is all `0xff`. -/
def prefixInterval (pfx key rangeEnd : List UInt8) : List UInt8 × List UInt8 :=
  let pfxKey := pfx ++ key
  if rangeEnd = [0] then
    match incrementWrapping pfx.reverse with
    | (e, true) => (pfxKey, e.reverse)
    | (_, false) => (pfxKey, [0])
  else if rangeEnd.length ≥ 1 then (pfxKey, pfx ++ rangeEnd)
  else (pfxKey, [])

/-- `kvPrefix` over the etcd implementation: the prefix of its namespace. -/
structure KVPrefix where
  pfx : List UInt8
  deriving DecidableEq, Repr

/-- `NewPrefixKVClient` of a tenant. -/
def newPrefixKVClient (tenantID : List UInt8) : KVPrefix :=
  ⟨makeNamespacePrefix tenantID⟩

namespace KVPrefix

mutual

/-- `prefixOp`. -/
def prefixOp (kv : KVPrefix) : Op → Op
  | op@⟨t, key, rangeEnd, _, ops, _, _, _⟩ =>
      if t ≠ .txn then
        let r := prefixInterval kv.pfx key rangeEnd
        { op with key := r.1, rangeEnd := r.2 }
      else opTxn (kv.prefixOps ops)

/-- `prefixOps`. -/
def prefixOps (kv : KVPrefix) : List Op → List Op
  | [] => []
  | op :: ops => kv.prefixOp op :: kv.prefixOps ops

end

/-- `unprefixGetResponse`: the first `len(pfx)` bytes of every key are cut off. -/
def unprefixGetResponse (kv : KVPrefix) (kvs : List KeyValue) : List KeyValue :=
  kvs.map fun kv' => { kv' with key := kv'.key.drop kv.pfx.length }

mutual

/-- `unprefixTxnResponse`, on one response. -/
def unprefixResponse (kv : KVPrefix) : ResponseOp → ResponseOp
  | .get kvs => .get (kv.unprefixGetResponse kvs)
  | .txn responses => .txn (kv.unprefixTxnResponse responses)
  | r => r

/-- `unprefixTxnResponse`. -/
def unprefixTxnResponse (kv : KVPrefix) : List ResponseOp → List ResponseOp
  | [] => []
  | r :: rs => kv.unprefixResponse r :: kv.unprefixTxnResponse rs

end

/-- The check of `Get` and `Delete` that protects the key of the namespace itself: an
empty key needs a range option. -/
def emptyKeyCheck (key : List UInt8) (opts : List OpOption) : Except CallFailure Unit :=
  if key.length = 0 ∧ !(isOptsWithFromKey opts || isOptsWithPrefix opts || isOptsWithRange opts)
  then .error (.error .errMetaEmptyKey)
  else .ok ()

/-- `Get` on the keyspace `store`. -/
def get (kv : KVPrefix) (store : List KeyValue) (key : List UInt8) (opts : List OpOption) :
    Except CallFailure (List KeyValue) := do
  emptyKeyCheck key opts
  let r ← etcdImplDo store (kv.prefixOp (opGet key opts))
  -- a get operation has a get response
  pure (kv.unprefixGetResponse r.2.kvs)

/-- `Delete` on the keyspace `store`: the keyspace after it. -/
def delete (kv : KVPrefix) (store : List KeyValue) (key : List UInt8) (opts : List OpOption) :
    Except CallFailure (List KeyValue) := do
  emptyKeyCheck key opts
  let r ← etcdImplDo store (kv.prefixOp (opDelete key opts))
  pure r.1

/-- `Put`. -/
def put (kv : KVPrefix) (store : List KeyValue) (key val : List UInt8) :
    Except CallFailure (List KeyValue) :=
  if key.length = 0 then .error (.error .errMetaEmptyKey)
  else (·.1) <$> etcdImplDo store (kv.prefixOp (opPut key val))

/-- `Do`: the keyspace after the operation and its response, with the prefix stripped from
the keys of get responses. -/
def doOp (kv : KVPrefix) (store : List KeyValue) (op : Op) :
    Except CallFailure (List KeyValue × ResponseOp) :=
  if op.key.length = 0 ∧ op.t ≠ .txn then .error (.error .errMetaEmptyKey)
  else (fun r => (r.1, kv.unprefixResponse r.2)) <$> etcdImplDo store (kv.prefixOp op)

/-- `txnPrefix.Do`. -/
def txnDo (kv : KVPrefix) (t : EtcdTxn) (ops : List Op) : Except EtcdPanic EtcdTxn :=
  t.doOps (kv.prefixOps ops)

/-- `txnPrefix.Commit`. -/
def txnCommit (kv : KVPrefix) (t : EtcdTxn) (store : List KeyValue) :
    EtcdTxn × Except Error (List KeyValue × List ResponseOp) :=
  let r := t.commit store
  (r.1, (fun s => (s.1, kv.unprefixTxnResponse s.2)) <$> r.2)

end KVPrefix

/-! ## The prefixed range

Every prefix of a namespace ends in `/`, a byte below `0xff`; the lemmas assume a prefix
`q ++ [b]` with `b < 0xff`. -/

section Prefix

variable {q : List UInt8} {b : UInt8}

theorem incrementWrapping_reverse (hb : b < 0xff) :
    incrementWrapping (q ++ [b]).reverse = ((b + 1) :: q.reverse, true) := by
  have hne : b + 1 ≠ 0 := by grind
  simp [incrementWrapping, hne]

@[simp] theorem prefixInterval_fst (pfx key rangeEnd : List UInt8) :
    (prefixInterval pfx key rangeEnd).1 = pfx ++ key := by
  unfold prefixInterval
  split
  · split <;> rfl
  · split <;> rfl

/-- The three cases of the range end of `prefixInterval`, for a prefix that does not end
in `0xff`. -/
theorem prefixInterval_snd (hb : b < 0xff) (key rangeEnd : List UInt8) :
    (prefixInterval (q ++ [b]) key rangeEnd).2 =
      if rangeEnd = [0] then q ++ [b + 1]
      else if rangeEnd = [] then [] else q ++ [b] ++ rangeEnd := by
  unfold prefixInterval
  rw [incrementWrapping_reverse hb]
  by_cases h0 : rangeEnd = [0]
  · simp [h0]
  · cases rangeEnd with
    | nil => simp
    | cons c e => simp [h0]

theorem succ_ne_nil_zero (hb : b < 0xff) : q ++ [b + 1] ≠ [] ∧ q ++ [b + 1] ≠ [0] := by
  have hne : b + 1 ≠ 0 := by grind
  refine ⟨by simp, fun h => ?_⟩
  cases q with
  | nil => exact hne (List.singleton_inj.1 h)
  | cons c q => simp at h

/-- The range `prefixInterval` builds covers exactly the prefixed keys of the range it is
given, under each of etcd's three readings of a range end. -/
theorem covers_prefixInterval (hb : b < 0xff) (key rangeEnd y : List UInt8) :
    covers (prefixInterval (q ++ [b]) key rangeEnd).1 (prefixInterval (q ++ [b]) key rangeEnd).2 y
        = true ↔
      ∃ x, y = q ++ [b] ++ x ∧ covers key rangeEnd x = true := by
  rw [prefixInterval_fst, prefixInterval_snd hb]
  by_cases h0 : rangeEnd = [0]
  · -- from the key on: the end is the least key above the namespace
    obtain ⟨hn, hz⟩ := succ_ne_nil_zero (q := q) hb
    simp only [h0, if_true, covers, hn, hz, noPrefixEnd, if_false, List.cons_ne_nil,
      Bool.and_eq_true, decide_eq_true_eq]
    rw [List.append_assoc, List.singleton_append, between_succ_iff hb]
    simp
  · by_cases hnil : rangeEnd = []
    · subst hnil
      simp only [covers, if_true, beq_iff_eq]
      simp
    · -- an interval: both ends carry the prefix
      have hlong : q ++ [b] ++ rangeEnd ≠ [0] := by
        intro h
        have := congrArg List.length h
        simp only [List.length_append, List.length_singleton] at this
        have : rangeEnd.length ≠ 0 := by simpa using hnil
        omega
      simp only [h0, hnil, if_false, covers, noPrefixEnd, hlong, List.append_eq_nil_iff,
        List.cons_ne_nil, and_false, Bool.and_eq_true, decide_eq_true_eq]
      rw [between_append_iff]

/-- Under `WithPrefix`, clientv3's end for the prefixed key is the end `prefixInterval`
makes of the end `WithPrefix` gave the key. -/
theorem prefixInterval_getPrefix (hb : b < 0xff) {key : List UInt8} :
    (prefixInterval (q ++ [b]) key (getPrefix key)).2 = getPrefix (q ++ [b] ++ key) := by
  rw [prefixInterval_snd hb, getPrefix_append]
  unfold getPrefix
  cases he : incrementLast key.reverse with
  | none => simp [noPrefixEnd, incrementLast, hb]
  | some e =>
      obtain ⟨c, rest, hc, rfl⟩ := incrementLast_eq_some he
      have hne : c + 1 ≠ 0 := by grind
      -- the incremented key ends in `c + 1`, which is not `0`
      have h0 : rest.reverse ++ [c + 1] ≠ [0] := by
        intro h
        have hlast := congrArg List.getLast? h
        simp only [List.getLast?_append, List.getLast?_singleton, Option.some_or] at hlast
        exact hne (Option.some_inj.1 hlast)
      simp [h0]

end Prefix

/-! ## The keys of an operation

By etcd's conventions on the key and the range end, an operation other than a transaction
denotes the keys its range covers, and a transaction the keys of its operations. The
namespace prefixes exactly those keys, through transactions nested to any depth, and
strips the prefix again from every key of a response. -/

mutual

/-- The keys an operation denotes. -/
def Op.denotes : Op → List UInt8 → Bool
  | ⟨t, key, rangeEnd, _, ops, _, _, _⟩, x =>
      if t = .txn then denotesAny ops x else covers key rangeEnd x

/-- The keys some operation of a list denotes. -/
def denotesAny : List Op → List UInt8 → Bool
  | [], _ => false
  | op :: ops, x => op.denotes x || denotesAny ops x

end

mutual

/-- A response with `pfx` in front of every key it returns. -/
def prefixResponse (pfx : List UInt8) : ResponseOp → ResponseOp
  | .get kvs => .get (kvs.map fun kv => { kv with key := pfx ++ kv.key })
  | .txn responses => .txn (prefixResponses pfx responses)
  | r => r

/-- `prefixResponse` on the responses of a transaction. -/
def prefixResponses (pfx : List UInt8) : List ResponseOp → List ResponseOp
  | [] => []
  | r :: rs => prefixResponse pfx r :: prefixResponses pfx rs

end

section Keys

variable {q : List UInt8} {b : UInt8} {kv : KVPrefix}

mutual

/-- The prefixed operation denotes exactly the prefixed keys of the operation. -/
theorem denotes_prefixOp (hp : kv.pfx = q ++ [b]) (hb : b < 0xff) :
    ∀ (op : Op) (y : List UInt8),
      (kv.prefixOp op).denotes y = true ↔ ∃ x, y = kv.pfx ++ x ∧ op.denotes x = true
  | ⟨t, key, rangeEnd, val, ops, f₁, f₂, f₃⟩, y => by
      by_cases ht : t = .txn
      · -- a transaction: its operations are prefixed one by one
        subst ht
        have hops := denotesAny_prefixOps hp hb ops y
        simpa only [KVPrefix.prefixOp, ne_eq, not_true_eq_false, if_false, opTxn, Op.empty,
          Op.denotes, if_true] using hops
      · simp only [KVPrefix.prefixOp, ne_eq, ht, not_false_eq_true, if_true, Op.denotes,
          if_false]
        rw [hp]
        exact covers_prefixInterval hb key rangeEnd y

/-- The prefixed operations of a list denote exactly the prefixed keys of the list. -/
theorem denotesAny_prefixOps (hp : kv.pfx = q ++ [b]) (hb : b < 0xff) :
    ∀ (ops : List Op) (y : List UInt8),
      denotesAny (kv.prefixOps ops) y = true ↔ ∃ x, y = kv.pfx ++ x ∧ denotesAny ops x = true
  | [], y => by simp [KVPrefix.prefixOps, denotesAny]
  | op :: ops, y => by
      simp only [KVPrefix.prefixOps, denotesAny, Bool.or_eq_true]
      rw [denotes_prefixOp hp hb op y, denotesAny_prefixOps hp hb ops y]
      constructor
      · rintro (⟨x, rfl, hx⟩ | ⟨x, rfl, hx⟩)
        · exact ⟨x, rfl, .inl hx⟩
        · exact ⟨x, rfl, .inr hx⟩
      · rintro ⟨x, rfl, hx | hx⟩
        · exact .inl ⟨x, rfl, hx⟩
        · exact .inr ⟨x, rfl, hx⟩

end

mutual

/-- Stripping the prefix undoes `prefixResponse`, through nested transactions. -/
theorem unprefixResponse_prefixResponse (kv : KVPrefix) :
    ∀ r : ResponseOp, kv.unprefixResponse (prefixResponse kv.pfx r) = r
  | .get kvs => by
      simp [prefixResponse, KVPrefix.unprefixResponse, KVPrefix.unprefixGetResponse,
        Function.comp_def]
  | .txn rs => by
      simp only [prefixResponse, KVPrefix.unprefixResponse,
        unprefixTxnResponse_prefixResponses kv rs]
  | .put => rfl
  | .delete => rfl

/-- `unprefixResponse_prefixResponse` on the responses of a transaction. -/
theorem unprefixTxnResponse_prefixResponses (kv : KVPrefix) :
    ∀ rs : List ResponseOp, kv.unprefixTxnResponse (prefixResponses kv.pfx rs) = rs
  | [] => rfl
  | r :: rs => by
      simp only [prefixResponses, KVPrefix.unprefixTxnResponse,
        unprefixResponse_prefixResponse kv r, unprefixTxnResponse_prefixResponses kv rs]

end

end Keys

/-- The namespace of a tenant prefixes exactly the keys an operation denotes, through
transactions nested to any depth; and on the response to the prefixed operation, whose
keys are the prefixed keys, `unprefixGetResponse` and `unprefixTxnResponse` give back
every key without its prefix. -/
theorem namespace_prefixes_keys (tenantID : List UInt8) :
    (∀ (op : Op) (y : List UInt8),
        ((newPrefixKVClient tenantID).prefixOp op).denotes y = true ↔
          ∃ x, y = makeNamespacePrefix tenantID ++ x ∧ op.denotes x = true) ∧
      (∀ r : ResponseOp, (newPrefixKVClient tenantID).unprefixResponse
          (prefixResponse (makeNamespacePrefix tenantID) r) = r) ∧
      ∀ rs : List ResponseOp, (newPrefixKVClient tenantID).unprefixTxnResponse
          (prefixResponses (makeNamespacePrefix tenantID) rs) = rs :=
  ⟨denotes_prefixOp rfl (by decide), unprefixResponse_prefixResponse _,
    unprefixTxnResponse_prefixResponses _⟩

/-! ## What the operations of a namespace reach in etcd -/

/-- The options under which etcd gets the prefixed range of the operation: none,
`WithPrefix` or `WithRange`. -/
def KeepsRange : List OpOption → Prop
  | [] | [.withPrefix] | [.withRange _] => True
  | _ => False

section Reach

variable {q : List UInt8} {b : UInt8} {kv : KVPrefix}

theorem prefixOp_of_ne_txn (op : Op) (ht : op.t ≠ .txn) :
    kv.prefixOp op =
      { op with
        key := (prefixInterval kv.pfx op.key op.rangeEnd).1
        rangeEnd := (prefixInterval kv.pfx op.key op.rangeEnd).2 } := by
  cases op
  simp only at ht
  simp [KVPrefix.prefixOp, ht]

theorem prefixOps_eq_map (ops : List Op) : kv.prefixOps ops = ops.map kv.prefixOp := by
  induction ops with
  | nil => rfl
  | cons op ops ih => simp [KVPrefix.prefixOps, ih]

/-- The etcd range of an operation other than a transaction. -/
def etcdRangeOf (op : Op) : List UInt8 × List UInt8 :=
  etcdRange op.key (getEtcdOptions op)

theorem getEtcdOp_get {op : Op} (ht : op.t = .get) :
    getEtcdOp op = .ok (.get (etcdRangeOf op).1 (etcdRangeOf op).2) := by
  cases op
  cases ht
  rfl

theorem getEtcdOp_delete {op : Op} (ht : op.t = .delete) :
    getEtcdOp op = .ok (.delete (etcdRangeOf op).1 (etcdRangeOf op).2) := by
  cases op
  cases ht
  rfl

/-- Behind the namespace, etcd gets the prefixed range of the range it gets without the
namespace, for every get or delete with no option, `WithPrefix` or `WithRange`. -/
theorem etcdRangeOf_prefixOp (hp : kv.pfx = q ++ [b]) (hb : b < 0xff) {t : OpType}
    (ht : t ≠ .txn) (key : List UInt8) {opts : List OpOption} (hopts : KeepsRange opts) :
    etcdRangeOf (kv.prefixOp (rangeOp t key opts)) =
      prefixInterval kv.pfx (etcdRangeOf (rangeOp t key opts)).1
        (etcdRangeOf (rangeOp t key opts)).2 := by
  rw [prefixOp_of_ne_txn _ (by rwa [rangeOp_t])]
  match opts, hopts with
  | [], _ =>
      -- no option: the key alone, on both sides
      rw [rangeOp_nil]
      rfl
  | [.withRange e], _ =>
      rw [rangeOp_withRange]
      rfl
  | [.withPrefix], _ =>
      by_cases hk : key = []
      · -- an empty key: `WithPrefix` sets no flag, and etcd gets the key `"\x00"` alone
        subst hk
        rw [rangeOp_withPrefix_nil]
        show ((prefixInterval kv.pfx [0] [0]).1, []) = prefixInterval kv.pfx [0] []
        rw [prefixInterval_fst]
        rfl
      · -- clientv3 recomputes the end from the prefixed key
        rw [rangeOp_withPrefix t hk]
        show etcdRange (prefixInterval kv.pfx key (getPrefix key)).1 [.withPrefix] =
          prefixInterval kv.pfx (etcdRange key [.withPrefix]).1 (etcdRange key [.withPrefix]).2
        have hpk : kv.pfx ++ key ≠ [] := by simp [hk]
        rw [prefixInterval_fst, etcdRange_withPrefix hpk, etcdRange_withPrefix hk]
        refine Prod.ext (prefixInterval_fst _ _ _).symm ?_
        rw [hp, prefixInterval_getPrefix hb]

/-- Under `WithFromKey`, etcd gets the prefixed key and the end `"\x00"`: every key from
the prefixed key on. -/
theorem etcdRangeOf_prefixOp_fromKey {t : OpType} (ht : t ≠ .txn) (key : List UInt8) :
    etcdRangeOf (kv.prefixOp (rangeOp t key [.withFromKey])) =
      (kv.pfx ++ (if key.length = 0 then [0] else key), [0]) := by
  rw [prefixOp_of_ne_txn _ (by rwa [rangeOp_t]), rangeOp_withFromKey]
  show etcdRange (prefixInterval kv.pfx (if key.length = 0 then [0] else key) [0]).1
    [.withFromKey] = _
  have hk : (if key.length = 0 then [0] else key) ≠ [] := by
    by_cases h : key.length = 0 <;> simp_all
  rw [prefixInterval_fst, etcdRange_withFromKey (List.append_ne_nil_of_right_ne_nil _ hk)]

theorem getEtcdOp_rangeOp {t : OpType} (ht : t = .get ∨ t = .delete) (op : Op)
    (hop : op.t = t) :
    ∃ e, getEtcdOp op = .ok e ∧ ∀ y, e.reaches y = covers (etcdRangeOf op).1 (etcdRangeOf op).2 y := by
  rcases ht with rfl | rfl
  · exact ⟨_, getEtcdOp_get hop, fun _ => rfl⟩
  · exact ⟨_, getEtcdOp_delete hop, fun _ => rfl⟩

/-- A get or delete of a namespace, with no option, `WithPrefix` or `WithRange`, reaches
in etcd exactly the prefixed keys of the keys it reaches without the namespace. -/
theorem getEtcdOp_prefixOp_translates (hp : kv.pfx = q ++ [b]) (hb : b < 0xff) {t : OpType}
    (ht : t = .get ∨ t = .delete) (key : List UInt8) {opts : List OpOption}
    (hopts : KeepsRange opts) :
    ∃ e e', getEtcdOp (rangeOp t key opts) = .ok e ∧
      getEtcdOp (kv.prefixOp (rangeOp t key opts)) = .ok e' ∧
      ∀ y, e'.reaches y = true ↔ ∃ x, y = kv.pfx ++ x ∧ e.reaches x = true := by
  have hnt : t ≠ .txn := by rcases ht with rfl | rfl <;> simp
  obtain ⟨e, he, hre⟩ := getEtcdOp_rangeOp ht _ (rangeOp_t t key opts)
  obtain ⟨e', he', hre'⟩ := getEtcdOp_rangeOp ht (kv.prefixOp (rangeOp t key opts))
    (by rw [prefixOp_of_ne_txn _ (by rwa [rangeOp_t])]; exact rangeOp_t t key opts)
  refine ⟨e, e', he, he', fun y => ?_⟩
  rw [hre', etcdRangeOf_prefixOp hp hb hnt key hopts, hp, covers_prefixInterval hb]
  simp only [hre]

/-- A get or delete of a namespace with `WithFromKey` reaches in etcd every key from the
prefixed key on. -/
theorem getEtcdOp_prefixOp_fromKey {t : OpType} (ht : t = .get ∨ t = .delete)
    (key : List UInt8) :
    ∃ e', getEtcdOp (kv.prefixOp (rangeOp t key [.withFromKey])) = .ok e' ∧
      ∀ y, e'.reaches y = true ↔ kv.pfx ++ (if key.length = 0 then [0] else key) ≤ y := by
  have hnt : t ≠ .txn := by rcases ht with rfl | rfl <;> simp
  obtain ⟨e', he', hre'⟩ := getEtcdOp_rangeOp ht (kv.prefixOp (rangeOp t key [.withFromKey]))
    (by rw [prefixOp_of_ne_txn _ (by rwa [rangeOp_t])]; exact rangeOp_t t key _)
  refine ⟨e', he', fun y => ?_⟩
  rw [hre', etcdRangeOf_prefixOp_fromKey hnt key]
  simp [covers, noPrefixEnd]

/-- The loop of `etcdTxn.Do` turns each operation into its clientv3 operation. -/
theorem collectEtcdOps_eq_some {ops : List Op} {es : List EtcdOp}
    (h : collectEtcdOps ops = .ok (some es)) :
    List.Forall₂ (fun op e => getEtcdOp op = .ok e) ops es := by
  induction ops generalizing es with
  | nil =>
      cases h
      exact .nil
  | cons op ops ih =>
      unfold collectEtcdOps at h
      split at h
      · cases h
      · split at h
        · cases h
        · rename_i eop hop
          cases hrest : collectEtcdOps ops with
          | error p => rw [hrest] at h; cases h
          | ok r =>
              rw [hrest] at h
              cases r with
              | none => cases h
              | some es' =>
                  cases h
                  exact .cons hop (ih hrest)

/-- Inside a transaction of a namespace, each operation becomes the clientv3 operation of
its prefixed operation, in order, unless the transaction records an error. -/
theorem txnDo_ops {t t' : EtcdTxn} {ops : List Op} (h : kv.txnDo t ops = .ok t')
    (herr : t'.err = none) :
    ∃ es, t'.ops = t.ops ++ es ∧
      List.Forall₂ (fun op e => getEtcdOp (kv.prefixOp op) = .ok e) ops es := by
  unfold KVPrefix.txnDo EtcdTxn.doOps at h
  split at h
  · cases h
    rename_i hsome
    rw [herr] at hsome
    cases hsome
  · split at h
    · cases h
      cases herr
    · split at h
      · cases h
      · cases h
        cases herr
      · rename_i es hes
        cases h
        refine ⟨es, rfl, ?_⟩
        have hf := collectEtcdOps_eq_some hes
        rw [prefixOps_eq_map, List.forall₂_map_left_iff] at hf
        exact hf

end Reach

/-- `Get` and `Delete` refuse an empty key under `WithPrefix`, whose flag the empty key
does not set: the whole namespace cannot be read or deleted this way. -/
theorem get_withPrefix_nil (kv : KVPrefix) (store : List KeyValue) :
    kv.get store [] [.withPrefix] = .error (.error .errMetaEmptyKey) := rfl

theorem delete_withPrefix_nil (kv : KVPrefix) (store : List KeyValue) :
    kv.delete store [] [.withPrefix] = .error (.error .errMetaEmptyKey) := rfl

/-- Tenants `a` and `b` share the keyspace: `a/x` is `1` and `b/y` is `2`. -/
def twoTenantStore : List KeyValue :=
  [⟨[0x61, 0x2f, 0x78], [0x31]⟩, ⟨[0x62, 0x2f, 0x79], [0x32]⟩]

/-- Tenant `a` reads `b/y` as its own key `y` with a `WithFromKey` get from `x`, and deletes
it with the same delete. -/
theorem fromKey_reaches_other_tenant :
    (newPrefixKVClient [0x61]).get twoTenantStore [0x78] [.withFromKey] =
        .ok [⟨[0x78], [0x31]⟩, ⟨[0x79], [0x32]⟩] ∧
      (newPrefixKVClient [0x61]).delete twoTenantStore [0x78] [.withFromKey] = .ok [] :=
  ⟨rfl, rfl⟩

end Meta

end Microcosm
