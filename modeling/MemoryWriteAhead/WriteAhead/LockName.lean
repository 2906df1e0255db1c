/-
  MemoryWriteAhead.WriteAhead.LockName
  ────────────────────────────────────
  **THE VIEWS THAT LOCK NAMES PUBLISH.**

  A connection publishes its view in the name of a lock that it holds.  A checkpoint
  queries the locks of every database of the origin, decodes their names and compares
  the numbers with its own.

    • `encodeTxIdLockName`, `decodeTxIdLockName` — the name, and the regular
      expression that takes it apart,
    • `decode_encode` — a name is read back on the same database, and on no other one,
    • `guards_read_off_names` — what a checkpoint waits for are the views.
-/
import MemoryWriteAhead.Library.Encoding
import MemoryWriteAhead.WriteAhead.Interleaving

namespace MemoryWriteAhead.WriteAhead

open Encoding

/-! ## §1. Numbers. -/

/-- The digits of radix 36. -/
def digits36 : List Char := "0123456789abcdefghijklmnopqrstuvwxyz".toList

/-- `toString(36)` -/
def toString36 (n : Nat) : List Char := numeral 36 (fun d => digits36.getD d '0') n

/-- `parseInt` with radix 36, of digits. -/
def parseInt36 (digits : List Char) : Nat := value 36 (fun c => digits36.idxOf c) digits

/-- The class `[0-9a-z]`. -/
def isDigit36 (c : Char) : Bool := digits36.contains c

/-! ## §2. Names. -/

/-- What `.` does not match. -/
def isLineTerminator (c : Char) : Bool :=
  c == '\n' || c == '\r' || c.toNat == 0x2028 || c.toNat == 0x2029

def txIdPrefix : List Char := "-txId<".toList

/-- What follows the name of the database. -/
def txIdSuffix (minTxId maxTxId : List Char) : List Char :=
  txIdPrefix ++ (minTxId ++ ':' :: (maxTxId ++ ['>']))

/-- `#encodeTxIdLockName` -/
def Conn.encodeTxIdLockName (zName : String) (c : Conn) : String :=
  String.ofList (zName.toList ++ txIdSuffix (toString36 c.minTxId) (toString36 c.txId))

/-- The regular expression behind its first group. -/
def matchTxIds (cs : List Char) : Option (List Char × List Char) :=
  match cs.dropPrefix? txIdPrefix with
  | none => none
  | some rest =>
      match rest.dropWhile isDigit36 with
      | ':' :: rest' =>
          if rest.takeWhile isDigit36 ≠ [] ∧ rest'.takeWhile isDigit36 ≠ []
              ∧ rest'.dropWhile isDigit36 = ['>'] then
            some (rest.takeWhile isDigit36, rest'.takeWhile isDigit36)
          else none
      | _ => none

/-- The groups of `/^(.*)-txId<([0-9a-z]+):([0-9a-z]+)>$/`; the first one takes as much as
it can. -/
def matchLockName (cs : List Char) : Option (List Char × List Char × List Char) :=
  (List.range (cs.length + 1)).reverse.findSome? fun k =>
    if (cs.take k).all fun c => !isLineTerminator c then
      (matchTxIds (cs.drop k)).map (Prod.mk (cs.take k))
    else none

/-- What `#decodeTxIdLockName` returns. -/
structure TxIdLock where
  name : String
  minTxId : Nat
  maxTxId : Nat
  encoded : String
  deriving DecidableEq, Repr

/-- `#decodeTxIdLockName` -/
def decodeTxIdLockName (zName lockName : String) : Option TxIdLock :=
  match matchLockName lockName.toList with
  | none => none
  | some (name, minTxId, maxTxId) =>
      if String.ofList name = zName then
        some ⟨String.ofList name, parseInt36 minTxId, parseInt36 maxTxId, lockName⟩
      else none

/-- `#getTxIdLocks`, for the names of the locks that are held. -/
def getTxIdLocks (zName : String) (held : List String) : List TxIdLock :=
  held.filterMap (decodeTxIdLockName zName)

/-- The oldest view, as a passive checkpoint finds it. -/
def Conn.busyTxId (c : Conn) (zName : String) (held : List String) : Nat :=
  (getTxIdLocks zName held).foldl (fun min value => Nat.min min value.maxTxId) c.txId

/-- One round of `#waitForTxIdLocks`: the locks that it waits for. -/
def failingLockNames (zName : String) (held : List String) (predicate : TxIdLock → Bool) :
    List String :=
  ((getTxIdLocks zName held).filter fun value => !predicate value).map TxIdLock.encoded

/-! ## §3. The regular expression. -/

section

variable {cs name name' xs ys xs' ys' : List Char} {n : Nat}

theorem digit36 : ∀ d, d < 36 → digits36.idxOf (digits36.getD d '0') = d := by decide

theorem isDigit36_of_lt : ∀ d, d < 36 → isDigit36 (digits36.getD d '0') = true := by decide

theorem toString36_digits (n : Nat) : ∀ c ∈ toString36 n, isDigit36 c = true := by
  intro c hc
  obtain ⟨d, hd, rfl⟩ := mem_numeral (by omega) hc
  exact isDigit36_of_lt d hd

/-- **A number is read back.** -/
theorem parseInt36_toString36 (n : Nat) : parseInt36 (toString36 n) = n :=
  value_numeral (by omega) digit36

/-- The groups are digits. -/
structure Digits (xs : List Char) : Prop where
  ne_nil : xs ≠ []
  digits : ∀ c ∈ xs, isDigit36 c = true

theorem digits_toString36 (n : Nat) : Digits (toString36 n) :=
  ⟨numeral_ne_nil, toString36_digits n⟩

theorem takeWhile_digits {c : Char} (hxs : ∀ c ∈ xs, isDigit36 c = true)
    (hc : isDigit36 c = false) (rest : List Char) :
    (xs ++ c :: rest).takeWhile isDigit36 = xs ∧ (xs ++ c :: rest).dropWhile isDigit36 = c :: rest := by
  rw [List.takeWhile_append_of_pos hxs, List.dropWhile_append_of_pos hxs, List.takeWhile_cons,
    List.dropWhile_cons, hc]
  exact ⟨List.append_nil xs, rfl⟩

/-- **What the expression matches** behind its first group. -/
theorem matchTxIds_eq_some_iff :
    matchTxIds cs = some (xs, ys) ↔ cs = txIdSuffix xs ys ∧ Digits xs ∧ Digits ys := by
  constructor
  · intro h
    unfold matchTxIds at h
    split at h
    next => cases h
    next rest hrest =>
      obtain ⟨front, hcs, hfront⟩ := List.dropPrefix?_eq_some_iff.mp hrest
      obtain rfl := eq_of_beq hfront
      split at h
      next rest' hrest' =>
        split at h
        next hcond =>
          obtain ⟨hxs, hys, hend⟩ := hcond
          obtain ⟨rfl, rfl⟩ := Prod.mk.inj (Option.some.inj h)
          refine ⟨?_, ⟨hxs, fun c hc => List.mem_takeWhile_imp hc⟩,
            ⟨hys, fun c hc => List.mem_takeWhile_imp hc⟩⟩
          have hsplit : rest'.takeWhile isDigit36 ++ ['>'] = rest' := by
            rw [← hend]
            exact List.takeWhile_append_dropWhile
          unfold txIdSuffix
          rw [hcs, hsplit, ← hrest', List.takeWhile_append_dropWhile]
        next => cases h
      next => cases h
  · rintro ⟨rfl, hxs, hys⟩
    have hstart : (txIdSuffix xs ys).dropPrefix? txIdPrefix = some (xs ++ ':' :: (ys ++ ['>'])) :=
      List.dropPrefix?_eq_some_iff.mpr ⟨txIdPrefix, rfl, beq_self_eq_true _⟩
    obtain ⟨htake, hdrop⟩ := takeWhile_digits hxs.digits (c := ':') (by decide) (ys ++ ['>'])
    obtain ⟨htake', hdrop'⟩ := takeWhile_digits hys.digits (c := '>') (by decide) []
    unfold matchTxIds
    rw [hstart]
    dsimp only
    rw [hdrop, htake]
    show (if xs ≠ [] ∧ (ys ++ ['>']).takeWhile isDigit36 ≠ []
        ∧ (ys ++ ['>']).dropWhile isDigit36 = ['>'] then
      some (xs, (ys ++ ['>']).takeWhile isDigit36) else none) = _
    rw [htake', hdrop', if_pos ⟨hxs.ne_nil, hys.ne_nil, rfl⟩]

theorem Digits.ne_of_mem (h : Digits xs) {c : Char} (hc : c ∈ xs) {d : Char}
    (hd : isDigit36 d = false) : c ≠ d := by
  rintro rfl
  exact Bool.noConfusion ((h.digits c hc).symm.trans hd)

/-- **A name is taken apart in one way only**, whatever the name of the database is. -/
theorem suffix_unique (hxs : Digits xs) (hys : Digits ys) (hxs' : Digits xs') (hys' : Digits ys')
    (h : name ++ txIdSuffix xs ys = name' ++ txIdSuffix xs' ys') :
    name = name' ∧ xs = xs' ∧ ys = ys' := by
  have hinside {us vs : List Char} (hus : Digits us) (hvs : Digits vs) :
      ∀ c ∈ (us ++ ':' :: (vs ++ ['>'])).reverse, c ≠ '<' := by
    intro c hc
    rcases List.mem_append.mp (List.mem_reverse.mp hc) with hin | hin
    · exact hus.ne_of_mem hin (by decide)
    · rcases List.mem_cons.mp hin with rfl | hin
      · decide
      · rcases List.mem_append.mp hin with hin | hin
        · exact hvs.ne_of_mem hin (by decide)
        · obtain rfl := List.mem_singleton.mp hin
          decide
  -- the last `<` is the same one
  have hshape (us vs ws : List Char) : (us ++ txIdSuffix vs ws).reverse
      = (vs ++ ':' :: (ws ++ ['>'])).reverse ++ '<' :: ("-txId".toList.reverse ++ us.reverse) := by
    have hsplit : txIdPrefix = "-txId".toList ++ ['<'] := by decide
    unfold txIdSuffix
    rw [hsplit]
    simp only [List.reverse_append, List.append_assoc, List.reverse_cons, List.reverse_nil,
      List.nil_append, List.cons_append]
  have hreverse := congrArg List.reverse h
  rw [hshape, hshape] at hreverse
  obtain ⟨hnumbers, -, hnames⟩ := split_unique (p := fun c => c ≠ '<') (hinside hxs hys)
    (hinside hxs' hys') (fun hne => hne rfl) (fun hne => hne rfl) hreverse
  have hname := List.reverse_inj.mp (List.append_cancel_left hnames)
  obtain ⟨hx, -, hbehind⟩ := split_unique (p := fun c => c ≠ ':')
    (fun c hc => hxs.ne_of_mem hc (by decide)) (fun c hc => hxs'.ne_of_mem hc (by decide))
    (fun hne => hne rfl) (fun hne => hne rfl) (List.reverse_inj.mp hnumbers)
  exact ⟨hname, hx, List.append_cancel_right hbehind⟩

/-- The name has no line terminator. -/
def OneLine (name : List Char) : Prop := ∀ c ∈ name, isLineTerminator c = false

instance instDecidableOneLine (name : List Char) : Decidable (OneLine name) :=
  List.decidableBAll (fun c => isLineTerminator c = false) name

theorem all_iff_oneLine : (name.all fun c => !isLineTerminator c) = true ↔ OneLine name := by
  rw [List.all_eq_true]
  exact forall₂_congr fun c _ => Bool.not_eq_true' _ ▸ Iff.rfl

/-- **What the expression matches.** -/
theorem matchLockName_eq_some_iff :
    matchLockName cs = some (name, xs, ys)
      ↔ cs = name ++ txIdSuffix xs ys ∧ OneLine name ∧ Digits xs ∧ Digits ys := by
  have hround {k : Nat} {found : List Char × List Char × List Char}
      (hk : (if (cs.take k).all fun c => !isLineTerminator c then
        (matchTxIds (cs.drop k)).map (Prod.mk (cs.take k)) else none) = some found) :
      cs = found.1 ++ txIdSuffix found.2.1 found.2.2 ∧ OneLine found.1 ∧ Digits found.2.1
        ∧ Digits found.2.2 := by
    split at hk
    next hline =>
      obtain ⟨groups, hgroups, rfl⟩ := Option.map_eq_some_iff.mp hk
      obtain ⟨hdrop, hxs, hys⟩ := matchTxIds_eq_some_iff.mp hgroups
      refine ⟨?_, all_iff_oneLine.mp hline, hxs, hys⟩
      show cs = cs.take k ++ txIdSuffix groups.1 groups.2
      rw [← hdrop, List.take_append_drop]
    next => cases hk
  constructor
  · intro h
    obtain ⟨front, k, behind, -, hk, -⟩ := List.findSome?_eq_some_iff.mp h
    exact hround hk
  · rintro ⟨hcs, hline, hxs, hys⟩
    -- a match exists, and it is the only one
    have hfound : (matchLockName cs).isSome := by
      refine List.findSome?_isSome_iff.mpr ⟨name.length, ?_, ?_⟩
      · rw [List.mem_reverse, List.mem_range, hcs, List.length_append]
        omega
      · rw [hcs, List.take_left, List.drop_left, if_pos (all_iff_oneLine.mpr hline),
          matchTxIds_eq_some_iff.mpr ⟨rfl, hxs, hys⟩]
        rfl
    obtain ⟨found, hsome⟩ := Option.isSome_iff_exists.mp hfound
    obtain ⟨front, k, behind, -, hk, -⟩ := List.findSome?_eq_some_iff.mp hsome
    obtain ⟨hcs', hline', hxs', hys'⟩ := hround hk
    obtain ⟨hname, hx, hy⟩ := suffix_unique hxs hys hxs' hys' (hcs.symm.trans hcs')
    rw [hsome, hname, hx, hy]

end

/-! ## §4. The round trip. -/

/-- **A name is read back** on the database that it is of, as the view that its connection
has; a connection on another one passes it over.  A database with a line terminator in its
name is never read back. -/
theorem decode_encode (zName zName' : String) (c : Conn) :
    decodeTxIdLockName zName (c.encodeTxIdLockName zName')
      = if zName = zName' ∧ OneLine zName'.toList then
          some ⟨zName', c.minTxId, c.txId, c.encodeTxIdLockName zName'⟩
        else none := by
  have hlist : (c.encodeTxIdLockName zName').toList
      = zName'.toList ++ txIdSuffix (toString36 c.minTxId) (toString36 c.txId) :=
    String.toList_ofList
  have hmin := digits_toString36 c.minTxId
  have hmax := digits_toString36 c.txId
  unfold decodeTxIdLockName
  by_cases hline : OneLine zName'.toList
  · rw [matchLockName_eq_some_iff.mpr ⟨hlist, hline, hmin, hmax⟩]
    dsimp only
    rw [String.ofList_toList, parseInt36_toString36, parseInt36_toString36]
    by_cases hname : zName = zName'
    · rw [if_pos hname.symm, if_pos ⟨hname, hline⟩]
    · rw [if_neg fun h => hname h.symm, if_neg fun h => hname h.1]
  · rw [if_neg fun h => hline h.2]
    cases hfound : matchLockName (c.encodeTxIdLockName zName').toList with
    | none => rfl
    | some found =>
        obtain ⟨name, xs, ys⟩ := found
        obtain ⟨hcs, hline', hxs, hys⟩ := matchLockName_eq_some_iff.mp hfound
        obtain ⟨rfl, -⟩ := suffix_unique hmin hmax hxs hys (hlist.symm.trans hcs)
        exact absurd hline' hline

/-- What a fold of `min` is not less than. -/
theorem le_foldl_min {locks : List TxIdLock} {bound start : Nat} :
    bound ≤ locks.foldl (fun min value => Nat.min min value.maxTxId) start
      ↔ bound ≤ start ∧ ∀ value ∈ locks, bound ≤ value.maxTxId := by
  induction locks generalizing start with
  | nil => exact ⟨fun h => ⟨h, fun value hvalue => absurd hvalue List.not_mem_nil⟩, And.left⟩
  | cons value locks ih =>
      rw [List.foldl_cons, ih, List.forall_mem_cons, ← and_assoc]
      exact and_congr_left' Nat.le_min

section

variable {Id : Type} {s : Shared Id} {zName : String} {held : List String}

/-- The locks that are held: those of the open connections of the database, those of the
connections of others, and locks with names of another form. -/
structure Published (s : Shared Id) (zName : String) (held : List String) : Prop where
  conns : ∀ i c, s.conns i = some c → c.encodeTxIdLockName zName ∈ held
  others : ∀ name ∈ held, (∃ i c, s.conns i = some c ∧ name = c.encodeTxIdLockName zName)
    ∨ (∃ zName', ∃ c : Conn, zName' ≠ zName ∧ name = c.encodeTxIdLockName zName')
    ∨ matchLockName name.toList = none

/-- The locks of the database are the views of its connections. -/
theorem Published.forall_locks (h : Published s zName held) (hline : OneLine zName.toList)
    {P : Nat → Nat → Prop} :
    (∀ value ∈ getTxIdLocks zName held, P value.minTxId value.maxTxId)
      ↔ ∀ i c, s.conns i = some c → P c.minTxId c.txId := by
  have hdecode (c : Conn) := decode_encode zName zName c
  constructor
  · intro hall i c hc
    have hvalue := hall _ (List.mem_filterMap.mpr ⟨_, h.conns i c hc,
      (hdecode c).trans (if_pos ⟨rfl, hline⟩)⟩)
    exact hvalue
  · intro hall value hvalue
    obtain ⟨name, hname, hfound⟩ := List.mem_filterMap.mp hvalue
    rcases h.others name hname with ⟨i, c, hc, rfl⟩ | ⟨zName', c, hne, rfl⟩ | hnone
    · rw [hdecode c, if_pos ⟨rfl, hline⟩] at hfound
      obtain rfl := Option.some.inj hfound
      exact hall i c hc
    · rw [decode_encode, if_neg fun h => hne h.1.symm] at hfound
      exact absurd hfound (Option.some_ne_none value).symm
    · unfold decodeTxIdLockName at hfound
      rw [hnone] at hfound
      exact absurd hfound (Option.some_ne_none value).symm

/-- **What a checkpoint reads off the names are the views**: it goes on exactly when its
guards hold of the connections. -/
theorem guards_read_off_names (h : Published s zName held) (hline : OneLine zName.toList) (c : Conn)
    (ckptId : Nat) :
    (ckptId ≤ c.busyTxId zName held
        ↔ ckptId ≤ c.txId ∧ ∀ j c', s.conns j = some c' → ckptId ≤ c'.txId)
      ∧ (failingLockNames zName held (fun value => decide (c.txId ≤ value.maxTxId)) = []
        ↔ ∀ j c', s.conns j = some c' → c.txId ≤ c'.txId)
      ∧ (failingLockNames zName held (fun value => decide (ckptId < value.minTxId)) = []
        ↔ ∀ j c', s.conns j = some c' → ckptId < c'.minTxId) := by
  have hwait {predicate : TxIdLock → Bool} : failingLockNames zName held predicate = []
      ↔ ∀ value ∈ getTxIdLocks zName held, predicate value = true := by
    unfold failingLockNames
    rw [List.map_eq_nil_iff, List.filter_eq_nil_iff]
    exact forall₂_congr fun value _ => by simp
  refine ⟨?_, ?_, ?_⟩
  · unfold Conn.busyTxId
    rw [le_foldl_min]
    exact and_congr_right' (h.forall_locks hline (P := fun _ maxTxId => ckptId ≤ maxTxId))
  · rw [hwait, ← h.forall_locks hline (P := fun _ maxTxId => c.txId ≤ maxTxId)]
    exact forall₂_congr fun value _ => decide_eq_true_iff
  · rw [hwait, ← h.forall_locks hline (P := fun minTxId _ => ckptId < minTxId)]
    exact forall₂_congr fun value _ => decide_eq_true_iff

end

/-- The locks of two connections that have seen one commit, and one of another kind. -/
theorem guards_read_off_names_two : ∃ c c', reading.conns true = some c
    ∧ reading.conns false = some c'
    ∧ (1 ≤ c.busyTxId "/db" [c.encodeTxIdLockName "/db", "/db#ckpt", c'.encodeTxIdLockName "/db"]
      ↔ 1 ≤ c.txId ∧ ∀ j c', reading.conns j = some c' → 1 ≤ c'.txId) := by
  obtain ⟨c, hc⟩ := reading_true
  obtain ⟨c', hc'⟩ := reading_false
  have hpublished : Published reading "/db"
      [c.encodeTxIdLockName "/db", "/db#ckpt", c'.encodeTxIdLockName "/db"] := by
    refine ⟨?_, ?_⟩
    · rintro (_ | _) other hother
      · obtain rfl := Option.some.inj (hc'.symm.trans hother)
        exact List.mem_cons_of_mem _ (List.mem_cons_of_mem _ List.mem_cons_self)
      · obtain rfl := Option.some.inj (hc.symm.trans hother)
        exact List.mem_cons_self
    · intro name hname
      rcases List.mem_cons.mp hname with rfl | hname
      · exact .inl ⟨true, c, hc, rfl⟩
      · rcases List.mem_pair.mp hname with rfl | rfl
        · exact .inr (.inr (by decide +kernel))
        · exact .inl ⟨false, c', hc', rfl⟩
  exact ⟨c, c', hc, hc', (guards_read_off_names hpublished (by decide +kernel) c 1).1⟩

end MemoryWriteAhead.WriteAhead
