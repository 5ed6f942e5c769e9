import DdsRpc.Futures
import DdsRpc.Samples
import Mathlib.Data.List.Nodup
set_option autoImplicit false

namespace DdsRpc
open Connext

namespace Session
variable {α TRep : Type} {T : TakeReply TRep}

theorem Numbering.lows {w : Session α TRep} (hw : Numbering w) :
    w.stamped.map (·.requestId.sequenceNumber.low) =
      (List.range' 1 w.stamped.length).map UInt32.ofNat := by
  have hids := congrArg (List.map (·.sequenceNumber.low)) hw.ids
  have hsnd := congrArg (List.map UInt32.ofNat) (List.zipIdx_map_snd 1 w.stampedBuffers)
  simp only [stampedIds,stampedBuffers,List.map_map,Function.comp_def,SampleIdentity.withLow,
    List.length_map] at hids hsnd
  rw [hids,hsnd]

theorem stamped_length_le (w : Session α TRep) : w.stamped.length ≤ w.requests.length :=
  List.length_filter_le _ _

theorem Numbering.nodup_lows {w : Session α TRep} (hw : Numbering w)
    (hlen : w.requests.length < 2^32) :
    (w.stamped.map (·.requestId.sequenceNumber.low)).Nodup := by
  rw [hw.lows]
  refine List.Nodup.map_on (fun m hm n hn heq => ?_) List.nodup_range'
  have := w.stamped_length_le
  simp only [List.mem_range'_1] at hm hn
  exact uint32_ofNat_inj (by omega) (by omega) heq

theorem Numbering.eq_of_low {w : Session α TRep} (hw : Numbering w)
    (hlen : w.requests.length < 2^32) {q q' : RequestRecord} (hq : q ∈ w.stamped)
    (hq' : q' ∈ w.stamped)
    (h : q.requestId.sequenceNumber.low = q'.requestId.sequenceNumber.low) : q = q' :=
  List.inj_on_of_nodup_map (hw.nodup_lows hlen) hq hq' h

theorem Numbering.exists_low {w : Session α TRep} (hw : Numbering w) {q : RequestRecord}
    (hq : q ∈ w.stamped) :
    ∃ n, n ≤ w.impl.sn ∧ q.requestId.sequenceNumber.low = .ofNat n := by
  have hmem := List.mem_map_of_mem (f := (·.requestId.sequenceNumber.low)) hq
  rw [hw.lows] at hmem
  obtain ⟨n,hn,heq⟩ := List.mem_map.mp hmem
  simp only [List.mem_range'_1] at hn
  exact ⟨n,by rw [hw.sn]; omega,heq.symm⟩

/-- Every entry was made by a synchronous request that has its number. -/
def Entries (w : Session α TRep) : Prop :=
  ∀ id i, w.impl.id2idMap.find id = some i → ∃ q ∈ w.stamped, q.path = .sync ∧
    q.requestId.sequenceNumber.low = id.sequenceNumber.low ∧ q.identity = some i

theorem entries_init (guid : DDS.GUID) : Entries (init guid : Session α TRep) :=
  fun _ _ h => (nomatch h)

structure NoNewEntry (w w' : Session α TRep) : Prop where
  find : ∀ id i, w'.impl.id2idMap.find id = some i → w.impl.id2idMap.find id = some i
  stamped : w.stamped ⊆ w'.stamped

theorem AppUnchanged.noNewEntry {w w' : Session α TRep} (h : AppUnchanged w w') :
    NoNewEntry w w' :=
  ⟨fun _ _ hf => h.id2idMap ▸ hf,h.sends.stamped_subset⟩

theorem Received.noNewEntry {w w' : Session α TRep} {reply reply' : Sample TRep}
    {id : SampleIdentity} {fs : List (Env TRep)} {ret : Bool}
    (h : Received T w reply id fs w' ret reply') : NoNewEntry w w' := by
  refine ⟨fun id' i hf => ?_,h.sends.stamped_subset⟩
  cases h with
  | unknown => exact hf
  | timedOut hrun | kept hrun | suppressed hrun =>
    exact (envRun_unchanged hrun).id2idMap ▸ hf
  | delivered hrun | dropped hrun =>
    exact (envRun_unchanged hrun).id2idMap ▸ StdMap.find_of_find_erase hf

/-- Of all steps only a synchronous send that does not throw makes an entry, and only
`receive_reply` returns a reply. -/
inductive EntryStep (T : TakeReply TRep) (w : Session α TRep) :
    Event α TRep → Session α TRep → Prop where
  | sendRequest (req : Request α) :
      EntryStep T w (.sendRequest req true) (w.sendRequest req true)
  | receiveReply {reply reply' : Sample TRep} {id : SampleIdentity}
      {during between fs : List (Env TRep)} {w₁ : Session α TRep} {ret : Bool} :
      Received T w reply id fs w₁ ret reply' →
      EntryStep T w (.receiveReply reply id during between) (w₁.recordReturn id ret reply')
  | other {e : Event α TRep} {w' : Session α TRep} : NoNewEntry w w' →
      w'.returned = w.returned → EntryStep T w e w'

theorem step_entryStep {w w' : Session α TRep} {e : Event α TRep}
    (h : w.step T e = some w') : EntryStep T w e w' := by
  cases e with
  | sendRequest req sent =>
    cases h
    cases sent
    · exact .other ⟨fun _ _ => id,(sendRequest_sends w req false).stamped_subset⟩ rfl
    · exact .sendRequest req
  | sendRequestRef req sent =>
    cases h
    cases sent <;> exact .other ⟨fun _ _ => id,(sendRequestRef_sends w req _).stamped_subset⟩ rfl
  | sendRequestAsync req sent =>
    cases h
    cases sent <;>
      exact .other ⟨fun _ _ => id,(sendRequestAsync_sends w req _).stamped_subset⟩ rfl
  | receiveNondataSamples enable =>
    cases h
    exact .other ⟨fun _ _ => id,List.Subset.refl _⟩ rfl
  | receiveReply reply id during between =>
    obtain ⟨⟨w₁,ret,r⟩,hrecv,rfl⟩ := Option.map_eq_some_iff.mp h
    have hr := receiveReply_around hrecv
    exact .receiveReply hr
  | env e =>
    have hsame := envStep_unchanged h
    exact .other hsame.noNewEntry hsame.returned

theorem entries_of_noNewEntry {w w' : Session α TRep} (h : NoNewEntry w w') (hw : Entries w) :
    Entries w' := by
  intro id i hf
  obtain ⟨q,hq,hrest⟩ := hw id i (h.find id i hf)
  exact ⟨q,h.stamped hq,hrest⟩

theorem find_sendRequest (w : Session α TRep) (req : Request α) (id : SampleIdentity) :
    (w.sendRequest req true).impl.id2idMap.find id =
      if Equivalent SampleIdentity.lt (w.impl.stamp req).header.requestId id
      then some w.impl.super.nextIdentity else w.impl.id2idMap.find id :=
  StdMap.find_set _ _ _ _

theorem entries_sendRequest {w : Session α TRep} (hw : Entries w) (req : Request α) :
    Entries (w.sendRequest req true) := by
  have hsends := sendRequest_sends w req true
  have hnew : w.record .sync req true ∈ (w.sendRequest req true).stamped := by
    simp [stamped,hsends.requests,record,RequestRecord.stamped]
  intro id i hf
  rw [find_sendRequest] at hf
  split at hf
  · cases hf
    exact ⟨_,hnew,rfl,SampleIdentity.equivalent_iff.mp ‹_›,rfl⟩
  · obtain ⟨q,hq,hrest⟩ := hw id i hf
    exact ⟨q,hsends.stamped_subset hq,hrest⟩

theorem entries_step {w w' : Session α TRep} {e : Event α TRep}
    (h : w.step T e = some w') (hw : Entries w) : Entries w' := by
  cases step_entryStep h with
  | sendRequest req => exact entries_sendRequest hw req
  | @receiveReply _ reply' id _ _ _ w₁ ret hr =>
    have hw₁ := entries_of_noNewEntry hr.noNewEntry hw
    cases ret <;> exact hw₁
  | other hno => exact entries_of_noNewEntry hno hw

theorem entries_run {guid : DDS.GUID} {w : Session α TRep} {es : List (Event α TRep)}
    (h : (machine T).run (init guid) es = some w) : Entries w :=
  Machine.run_preserves (P := Entries) entries_step h (entries_init guid)

structure Returned (w : Session α TRep) : Prop where
  request : ∀ p ∈ w.returned, (∃ q ∈ w.stamped, q.path = .sync ∧ q.requestId = p.1 ∧
    q.identity = some p.2.info.relatedIdentity) ∧ w.impl.id2idMap.find p.1 = none
  nodup : (w.returned.map (·.1.sequenceNumber.low)).Nodup

theorem returned_init (guid : DDS.GUID) : Returned (init guid : Session α TRep) :=
  ⟨by simp [init],.nil⟩

theorem returned_of_noNewEntry {w w' : Session α TRep} (h : NoNewEntry w w')
    (hret : w'.returned = w.returned) (hw : Returned w) : Returned w' := by
  refine ⟨fun p hp => ?_,hret ▸ hw.nodup⟩
  obtain ⟨⟨q,hq,hrest⟩,hnone⟩ := hw.request p (hret ▸ hp)
  refine ⟨⟨q,h.stamped hq,hrest⟩,Option.eq_none_iff_forall_ne_some.mpr (fun i hf => ?_)⟩
  rw [h.find p.1 i hf] at hnone
  cases hnone

theorem returned_sendRequest {w : Session α TRep} (hn : Numbering w) (hw : Returned w)
    (req : Request α) (hlen : (w.sendRequest req true).requests.length < 2^32) :
    Returned (w.sendRequest req true) := by
  have hsends := sendRequest_sends w req true
  have hsn : w.impl.sn+1 < 2^32 := by
    have := w.stamped_length_le
    rw [hsends.requests,List.length_append] at hlen
    rw [hn.sn]
    simp only [List.length_singleton] at hlen
    omega
  refine ⟨fun p hp => ?_,hw.nodup⟩
  obtain ⟨⟨q,hq,hpath,hid,hrel⟩,hnone⟩ := hw.request p hp
  refine ⟨⟨q,hsends.stamped_subset hq,hpath,hid,hrel⟩,?_⟩
  rw [find_sendRequest,hnone,if_neg]
  intro hequiv
  obtain ⟨n,hle,hlow⟩ := hn.exists_low hq
  have heq := SampleIdentity.equivalent_iff.mp hequiv
  rw [← hid,hlow] at heq
  have := uint32_ofNat_inj hsn (by omega) heq
  omega

theorem returned_delivered {w : Session α TRep} (hn : Numbering w) (he : Entries w)
    (hw : Returned w) (hlen : w.requests.length < 2^32) {id : SampleIdentity}
    (hid : id ∈ w.stampedIds) {i : DDS.SampleIdentity} (hf : w.impl.id2idMap.find id = some i)
    {r : Sample TRep} (hr : r.info.relatedIdentity = i) (rest : List (Sample TRep)) :
    Returned { w with
      impl := { w.impl.withReader rest with id2idMap := w.impl.id2idMap.erase id }
      returned := w.returned ++ [(id,r)] } := by
  obtain ⟨q',hq',hid'⟩ := List.mem_map.mp hid
  obtain ⟨q,hq,hpath,hlow,hident⟩ := he id i hf
  obtain rfl : q = q' := hn.eq_of_low hlen hq hq' (by rw [hlow,hid'])
  constructor
  · intro p hp
    rcases List.mem_append.mp hp with hp | hp
    · obtain ⟨hq₁,hnone⟩ := hw.request p hp
      exact ⟨hq₁,by simp only [StdMap.find_erase,hnone,ite_self]⟩
    · rw [List.mem_singleton.mp hp]
      exact ⟨⟨q,hq,hpath,hid',by rw [hident,hr]⟩,by simp [StdMap.find_erase,Equivalent.refl]⟩
  · rw [List.map_append,List.nodup_append]
    refine ⟨hw.nodup,by simp,fun a ha b hb heq => ?_⟩
    obtain ⟨p,hp,rfl⟩ := List.mem_map.mp ha
    simp only [List.map_cons,List.map_nil,List.mem_singleton] at hb
    have hcongr := w.impl.id2idMap.find_congr (SampleIdentity.equivalent_iff.mpr (heq.trans hb))
    rw [(hw.request p hp).2,hf] at hcongr
    cases hcongr

theorem Received.returned {w w' : Session α TRep} {reply reply' : Sample TRep}
    {id : SampleIdentity} {fs : List (Env TRep)} {ret : Bool}
    (h : Received T w reply id fs w' ret reply') (hn : Numbering w) (he : Entries w)
    (hlen : w.requests.length < 2^32) (hid : id ∈ w.stampedIds) (hw : Returned w) :
    Returned (w'.recordReturn id ret reply') := by
  have hno := h.noNewEntry
  cases h with
  | unknown => exact hw
  | timedOut hrun | kept hrun | suppressed hrun | dropped hrun =>
    exact returned_of_noNewEntry hno (envRun_unchanged hrun).returned hw
  | @delivered w₁ i r rest hrun hf htake =>
    have hsame := envRun_unchanged hrun
    refine returned_delivered (numbering_of_sendsUnchanged hsame.sends hn)
      (entries_of_noNewEntry hsame.noNewEntry he)
      (returned_of_noNewEntry hsame.noNewEntry hsame.returned hw) (by rwa [hsame.requests])
      (by rwa [stampedIds,hsame.sends.stamped]) hf (T.take_some htake).1 rest

/-- The ids that `receive_reply` is called with are ids this requester stamped. -/
def ownId (w : Session α TRep) : Event α TRep → Bool
  | .receiveReply _ id _ _ => id ∈ w.stampedIds
  | _ => true

def ownMachine (T : TakeReply TRep) : Machine (Session α TRep) (Event α TRep) :=
  (machine T).restrict (fun w e => w.ownId e)

theorem requests_length_step {w w' : Session α TRep} {e : Event α TRep}
    (h : w.step T e = some w') : w.requests.length ≤ w'.requests.length := by
  cases he : e.isSend with
  | false => rw [(step_sendsUnchanged h he).requests]
  | true =>
    obtain ⟨q,hq⟩ := step_sends h he
    simp [hq.requests]

theorem returned_step {w w' : Session α TRep} {e : Event α TRep} (hown : w.ownId e)
    (h : w.step T e = some w') (hn : Numbering w) (he : Entries w)
    (hlen : w'.requests.length < 2^32) (hw : Returned w) : Returned w' := by
  have hle := requests_length_step h
  cases step_entryStep h with
  | sendRequest req => exact returned_sendRequest hn hw req hlen
  | receiveReply hr => exact hr.returned hn he (by omega) (by simpa [ownId] using hown) hw
  | other hno hret => exact returned_of_noNewEntry hno hret hw

theorem returned_run {guid : DDS.GUID} {w : Session α TRep} {es : List (Event α TRep)}
    (h : (ownMachine T).run (init guid) es = some w) (hlen : w.requests.length < 2^32) :
    Returned w := by
  have hinv := Machine.run_preserves
    (P := fun w : Session α TRep =>
      Numbering w ∧ Entries w ∧ (w.requests.length < 2^32 → Returned w))
    (fun hs hw => ?_) h ⟨numbering_init guid,entries_init guid,fun _ => returned_init guid⟩
  · exact hinv.2.2 hlen
  · obtain ⟨hown,hs⟩ := Machine.step_restrict.mp hs
    obtain ⟨hn,he,hw⟩ := hw
    refine ⟨numbering_step hs hn,entries_step hs he,fun hlen =>
      returned_step hown hs hn he hlen (hw ?_)⟩
    exact Nat.lt_of_le_of_lt (requests_length_step hs) hlen

def completions (w : Session α TRep) (q : RequestRecord) : Nat :=
  (w.returned.map Prod.fst).count q.requestId +
    match q.path with
    | .async p =>
      if q.sent then ((w.promises[p]?.getD []).flatMap Completion.numbers).length else 0
    | _ => 0

structure Correlated (w : Session α TRep) : Prop where
  received : ∀ p ∈ w.returned, (∃ q ∈ w.stamped, q.requestId = p.1) ∧
    ∀ q ∈ w.stamped, q.requestId = p.1 → q.identity = some p.2.info.relatedIdentity
  futures : ∀ {n cs r}, w.promises[n]? = some cs → .value r ∈ cs →
    (∃ q ∈ w.requests, q.path = .async n ∧ q.sent) ∧
    ∀ q ∈ w.requests, q.path = .async n → q.sent → q.identity = some r.info.relatedIdentity
  samples : w.delivered.Nodup
  once : ∀ q ∈ w.stamped, w.completions q ≤ 1

theorem Threads.future {w : Session α TRep} (hw : Threads w) {n : Nat}
    {cs : List (Completion TRep)} {r : Sample TRep} (hcs : w.promises[n]? = some cs)
    (hr : .value r ∈ cs) : (∃ q ∈ w.requests, q.path = .async n ∧ q.sent) ∧
    ∀ q ∈ w.requests, q.path = .async n → q.sent →
      q.identity = some r.info.relatedIdentity := by
  have hlt : n < w.threads.length := by
    rw [← hw.promises]
    exact (List.getElem?_eq_some_iff.mp hcs).1
  have ht := List.getElem?_eq_getElem hlt
  constructor
  · obtain ⟨q,hq,hpath,hident⟩ := hw.async_iff.mpr ⟨_,ht,rfl⟩
    exact ⟨q,hq,hpath,by simp [RequestRecord.sent,hident]⟩
  · intro q hq hpath hsent
    obtain ⟨i,hident⟩ := Option.isSome_iff_exists.mp hsent
    obtain ⟨t,ht',rfl⟩ := hw.async_iff.mp ⟨q,hq,hpath,hident⟩
    obtain ⟨cs',hcs',-,hrel⟩ := (hw.ok ht').promise
    rw [hcs] at hcs'
    cases hcs'
    rw [hident,show r.info.relatedIdentity = t.identity from hrel _ hr]

theorem numbers_length_le (cs : List (Completion TRep)) :
    (cs.flatMap Completion.numbers).length ≤ cs.length := by
  induction cs with
  | nil => simp
  | cons c cs ih =>
    simp only [List.flatMap_cons,List.length_append,List.length_cons]
    cases c <;> simp only [Completion.numbers_value,Completion.numbers_exception,
      List.length_singleton,List.length_nil] <;> omega

theorem completions_le_one {w : Session α TRep} (hn : Numbering w) (ht : Threads w)
    (hp : Returned w) (hlen : w.requests.length < 2^32) {q : RequestRecord}
    (hq : q ∈ w.stamped) : w.completions q ≤ 1 := by
  have hids : (w.returned.map Prod.fst).Nodup :=
    List.Nodup.of_map (·.sequenceNumber.low) (by simpa [Function.comp_def] using hp.nodup)
  have hcount := List.nodup_iff_count.mp hids q.requestId
  unfold completions
  split
  · rename_i n hpath
    have hzero : (w.returned.map Prod.fst).count q.requestId = 0 := by
      refine List.count_eq_zero.mpr (fun hmem => ?_)
      obtain ⟨p,hp',hid⟩ := List.mem_map.mp hmem
      obtain ⟨⟨q',hq',hpath',hid',-⟩,-⟩ := hp.request p hp'
      have hqq := hn.eq_of_low hlen hq hq' (by rw [hid',hid])
      rw [hqq,hpath'] at hpath
      cases hpath
    rw [hzero]
    split
    · rename_i hsent
      obtain ⟨i,hident⟩ := Option.isSome_iff_exists.mp hsent
      obtain ⟨t,hget,-⟩ := ht.async_iff.mp ⟨q,(List.mem_filter.mp hq).1,hpath,hident⟩
      obtain ⟨cs,hcs,hone,-⟩ := (ht.ok hget).promise
      have hle := numbers_length_le cs
      have : t.pc.completions ≤ 1 := by cases t.pc <;> simp [ExecutePc.completions]
      simp only [hcs,Option.getD_some]
      omega
    · omega
  · omega

/-- Replies and requests stay together over every run of fewer than 2^31 sends whose
calls of `receive_reply` name ids that the requester stamped. -/
theorem correlated_run {guid : DDS.GUID} {w : Session α TRep} {es : List (Event α TRep)}
    (h : (ownMachine T).run (init guid) es = some w) (hlen : w.requests.length < 2^31) :
    Correlated w := by
  have hrun := Machine.run_of_restrict h
  have hn := numbering_run hrun
  have ht := threads_run hrun
  have hp := returned_run h (by omega)
  constructor
  · intro p hp'
    obtain ⟨⟨q,hq,-,hid,hrel⟩,-⟩ := hp.request p hp'
    refine ⟨⟨q,hq,hid⟩,fun q' hq' hid' => ?_⟩
    rw [← hrel,hn.eq_of_low (by omega) hq' hq (by rw [hid',hid])]
  · exact ht.future
  · exact (accounted_run hrun).nodup
  · exact fun q hq => completions_le_one hn ht hp (by omega) hq

def crossedRun : List (Event Unit Unit) :=
  [.sendRequest ⟨.initial,()⟩ true,.sendRequestAsync ⟨.initial,()⟩ true,
    .env (.arrive ⟨(),true,⟨⟨.zero 16⟩,.nth 1⟩,⟨⟨.zero 16⟩,.nth 2⟩⟩),
    .env (.arrive ⟨(),true,⟨⟨.zero 16⟩,.nth 2⟩,⟨⟨.zero 16⟩,.nth 1⟩⟩),
    .env (.thread 0 .wake),.env (.thread 0 .take),
    .receiveReply ⟨(),⟨false,⟨⟨.zero 16⟩,.nth 0⟩,⟨⟨.zero 16⟩,.nth 0⟩,0⟩⟩
      (RequestHeader.initial.requestId.withLow 1) [] [],
    .env (.thread 0 .complete),.env (.thread 0 .erase)]

theorem correlated_crossed : ∃ w : Session Unit Unit,
    (ownMachine .oldest).run (init ⟨.zero 16⟩) crossedRun = some w ∧
    w.returned.length = 1 ∧ Correlated w := by
  have hsome : ((ownMachine .oldest).run (init ⟨.zero 16⟩) crossedRun).any
      (fun w => w.requests.length = 2 ∧ w.returned.length = 1) = true := by decide
  obtain ⟨w,hw,hlen⟩ := (Option.any_eq_true _ _).mp hsome
  obtain ⟨hreq,hret⟩ := of_decide_eq_true hlen
  exact ⟨w,hw,hret,correlated_run hw (by omega)⟩

end Session
end DdsRpc
