import Microcosm.Pkg.Meta.Metaclient

/-!
# The etcd implementation of the metastore client

`pkg/meta/kvclient/etcdkv/etcd_client.go` over clientv3 and an etcd keyspace.
`getEtcdOp` turns an `Op` into a clientv3 operation. It rebuilds the clientv3 range
options from the three flags of the `Op` (`getEtcdOptions`): the range end that reaches
etcd is computed again by clientv3 from the key under `WithPrefix` and `WithFromKey`, and
taken from the `Op` only under `WithRange`.

The clientv3 options are those of etcd: `WithPrefix` sets the end to `getPrefix(key)`, and
both key and end to `"\x00"` on an empty key; `WithFromKey` sets the end to `"\x00"`, and an
empty key to `"\x00"`; `WithRange(end)` sets the end. A range request covers, by etcd's
conventions, the key alone when its end is empty, every key from the key on when its end
is `"\x00"`, and the half-open interval from the key to the end otherwise (`covers`). The
keyspace is a list of key-value pairs sorted by key.
-/

namespace Microcosm

namespace Meta

/-- A clientv3 operation, by what etcd executes: the key, the range end and the value,
or the operations of a transaction's `Then` branch. -/
inductive EtcdOp
  | get (key rangeEnd : List UInt8)
  | put (key val : List UInt8)
  | delete (key rangeEnd : List UInt8)
  | txn (thenOps : List EtcdOp)

/-- The clientv3 range options. -/
inductive EtcdOpOption
  | withPrefix
  | withFromKey
  | withRange (endKey : List UInt8)
  deriving DecidableEq, Repr

/-- A clientv3 option on the key and range end of an operation. -/
def EtcdOpOption.apply : EtcdOpOption → List UInt8 × List UInt8 → List UInt8 × List UInt8
  | .withPrefix, (key, _) =>
      if key.length = 0 then ([0], [0]) else (key, getPrefix key)
  | .withFromKey, (key, _) => (if key.length = 0 then [0] else key, [0])
  | .withRange endKey, (key, _) => (key, endKey)

/-- The key and range end of a clientv3 operation on `key` with the options `opts`. -/
def etcdRange (key : List UInt8) (opts : List EtcdOpOption) : List UInt8 × List UInt8 :=
  opts.foldl (fun r opt => opt.apply r) (key, [])

theorem etcdRange_withPrefix {key : List UInt8} (hk : key ≠ []) :
    etcdRange key [.withPrefix] = (key, getPrefix key) := by
  have hlen : key.length ≠ 0 := by simpa using hk
  simp only [etcdRange, List.foldl_cons, List.foldl_nil, EtcdOpOption.apply, hlen, if_false]

theorem etcdRange_withFromKey {key : List UInt8} (hk : key ≠ []) :
    etcdRange key [.withFromKey] = (key, [0]) := by
  have hlen : key.length ≠ 0 := by simpa using hk
  simp only [etcdRange, List.foldl_cons, List.foldl_nil, EtcdOpOption.apply, hlen, if_false]

/-- `getEtcdOptions`: the first flag that is set, in this order, gives the option. -/
def getEtcdOptions (op : Op) : List EtcdOpOption :=
  if op.isOptsWithPrefix then [.withPrefix]
  else if op.isOptsWithFromKey then [.withFromKey]
  else if op.isOptsWithRange then [.withRange op.rangeEnd]
  else []

/-- The panic of `getEtcdOp`: "unknown op type". -/
inductive EtcdPanic
  | unknownOpType
  deriving DecidableEq, Repr

mutual

/-- `getEtcdOp`. -/
def getEtcdOp : Op → Except EtcdPanic EtcdOp
  | op@⟨t, key, _, val, ops, _, _, _⟩ =>
      let r := etcdRange key (getEtcdOptions op)
      match t with
      | .get => .ok (.get r.1 r.2)
      | .put => .ok (.put r.1 val)
      | .delete => .ok (.delete r.1 r.2)
      | .txn => .txn <$> getEtcdOps ops
      | .invalid => .error .unknownOpType

/-- The loop of `getEtcdOp` over the operations of a transaction. -/
def getEtcdOps : List Op → Except EtcdPanic (List EtcdOp)
  | [] => .ok []
  | op :: ops =>
      match getEtcdOp op with
      | .error p => .error p
      | .ok eop => (eop :: ·) <$> getEtcdOps ops

end

/-- The keys an etcd range request on `key` up to `rangeEnd` covers. -/
def covers (key rangeEnd x : List UInt8) : Bool :=
  if rangeEnd = [] then x == key
  else if rangeEnd = noPrefixEnd then decide (key ≤ x)
  else decide (key ≤ x) && decide (x < rangeEnd)

mutual

/-- The keys an operation reads or writes. -/
def EtcdOp.reaches : EtcdOp → List UInt8 → Bool
  | .get key rangeEnd, x => covers key rangeEnd x
  | .put key _, x => x == key
  | .delete key rangeEnd, x => covers key rangeEnd x
  | .txn ops, x => reachesAny ops x

/-- The keys some operation of a list reads or writes. -/
def reachesAny : List EtcdOp → List UInt8 → Bool
  | [], _ => false
  | op :: ops, x => op.reaches x || reachesAny ops x

end

/-- The response to one operation. -/
inductive ResponseOp
  | get (kvs : List KeyValue)
  | put
  | delete
  | txn (responses : List ResponseOp)

/-- The key-value pairs of a get response; other responses have none. -/
def ResponseOp.kvs : ResponseOp → List KeyValue
  | .get kvs => kvs
  | _ => []

/-- A put into the keyspace, kept sorted by key. -/
def insertKV : List KeyValue → KeyValue → List KeyValue
  | [], kv => [kv]
  | kv' :: store, kv =>
      if kv.key < kv'.key then kv :: kv' :: store
      else if kv.key = kv'.key then kv :: store
      else kv' :: insertKV store kv

mutual

/-- etcd executing an operation on the keyspace `store`. -/
def EtcdOp.run : List KeyValue → EtcdOp → List KeyValue × ResponseOp
  | store, .get key rangeEnd => (store, .get (store.filter fun kv => covers key rangeEnd kv.key))
  | store, .put key val => (insertKV store ⟨key, val⟩, .put)
  | store, .delete key rangeEnd => (store.filter fun kv => !covers key rangeEnd kv.key, .delete)
  | store, .txn ops =>
      let r := runAll store ops
      (r.1, .txn r.2)

/-- etcd executing operations one after the other. -/
def runAll : List KeyValue → List EtcdOp → List KeyValue × List ResponseOp
  | store, [] => (store, [])
  | store, op :: ops =>
      let r := op.run store
      let rs := runAll r.1 ops
      (rs.1, r.2 :: rs.2)

end

/-- What a call of the client ends with when it does not return a response. -/
inductive CallFailure
  | error (err : Error)
  | panic (p : EtcdPanic)
  deriving DecidableEq, Repr

/-- `etcdImpl.Do` on the keyspace `store`. -/
def etcdImplDo (store : List KeyValue) (op : Op) :
    Except CallFailure (List KeyValue × ResponseOp) :=
  match op.checkValidOp with
  | .error err => .error (.error (.errMetaOptionInvalid err))
  | .ok () =>
      match getEtcdOp op with
      | .error p => .error (.panic p)
      | .ok eop => .ok (eop.run store)

/-- `etcdTxn`: the operations collected so far, the cached error and whether it was
committed. -/
structure EtcdTxn where
  ops : List EtcdOp
  err : Option Error
  committed : Bool

/-- A new `etcdTxn`. -/
def EtcdTxn.empty : EtcdTxn := ⟨[], none, false⟩

/-- The loop of `etcdTxn.Do`: the clientv3 operations of `ops`, or `none` at the first
transaction among them. -/
def collectEtcdOps : List Op → Except EtcdPanic (Option (List EtcdOp))
  | [] => .ok (some [])
  | op :: ops =>
      if op.t = .txn then .ok none
      else
        match getEtcdOp op with
        | .error p => .error p
        | .ok eop => (collectEtcdOps ops).map (Option.map (eop :: ·))

/-- `etcdTxn.Do`: a transaction inside the transaction is refused, and nothing of the call
is added then. -/
def EtcdTxn.doOps (t : EtcdTxn) (ops : List Op) : Except EtcdPanic EtcdTxn :=
  if t.err.isSome then .ok t
  else if t.committed then .ok { t with err := some .errMetaCommittedTxn }
  else
    match collectEtcdOps ops with
    | .error p => .error p
    | .ok none => .ok { t with err := some .errMetaNestedTxn }
    | .ok (some etcdOps) => .ok { t with ops := t.ops ++ etcdOps }

/-- `etcdTxn.Commit` on the keyspace `store`: the collected operations run as the `Then`
branch of a transaction without conditions. The transaction is returned in every case,
since a second commit caches its error. -/
def EtcdTxn.commit (t : EtcdTxn) (store : List KeyValue) :
    EtcdTxn × Except Error (List KeyValue × List ResponseOp) :=
  match t.err with
  | some err => (t, .error err)
  | none =>
      if t.committed then ({ t with err := some .errMetaCommittedTxn }, .error .errMetaCommittedTxn)
      else ({ t with committed := true }, .ok (runAll store t.ops))

end Meta

end Microcosm
