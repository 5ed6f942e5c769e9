import DdsRpc.Correlation
set_option autoImplicit false

namespace DdsRpc
open Connext

namespace Session
variable {α TRep : Type} {T : TakeReply TRep} {w w' : Session α TRep}

def Bears (id : SampleIdentity) (q : RequestRecord) : Prop :=
  q.path = .sync ∧ q.sent ∧ q.requestId.sequenceNumber.low = id.sequenceNumber.low

/-- `q` is the `j`-th stamped request, and none after it bears `id`. -/
structure IsLatest (w : Session α TRep) (id : SampleIdentity) (j : ℕ) (q : RequestRecord) :
    Prop where
  stamped : w.stamped[j]? = some q
  bears : Bears id q
  last : ∀ m q', w.stamped[m]? = some q' → Bears id q' → m ≤ j

def Latest (w : Session α TRep) : Prop :=
  ∀ id i, w.impl.id2idMap.find id = some i → ∃ j q, IsLatest w id j q ∧ q.identity = some i

theorem IsLatest.mono {id : SampleIdentity} {j : ℕ} {q : RequestRecord}
    (h : IsLatest w id j q) {qs : List RequestRecord} (hs : w'.stamped = w.stamped ++ qs)
    (hqs : ∀ q' ∈ qs, ¬ Bears id q') : IsLatest w' id j q := by
  obtain ⟨hlt,-⟩ := List.getElem?_eq_some_iff.mp h.stamped
  refine ⟨by rw [hs,List.getElem?_append_left hlt,h.stamped],h.bears,fun m q' hm hq' => ?_⟩
  rw [hs] at hm
  rcases Nat.lt_or_ge m w.stamped.length with hmlt | hge
  · rw [List.getElem?_append_left hmlt] at hm
    exact h.last m q' hm hq'
  · rw [List.getElem?_append_right hge] at hm
    exact absurd hq' (hqs q' (List.mem_of_getElem? hm))

theorem latest_init (guid : DDS.GUID) : Latest (init guid : Session α TRep) :=
  fun _ _ h => (nomatch h)

theorem latest_of_noNewEntry (h : NoNewEntry w w') (qs : List RequestRecord)
    (hs : w'.stamped = w.stamped ++ qs) (hqs : ∀ q ∈ qs, ¬ (q.path = .sync ∧ q.sent))
    (hw : Latest w) : Latest w' := by
  intro id i hf
  obtain ⟨j,q,hq,hi⟩ := hw id i (h.find id i hf)
  exact ⟨j,q,hq.mono hs (fun q' hq' hb => hqs q' hq' ⟨hb.1,hb.2.1⟩),hi⟩

theorem latest_sendRequest (hw : Latest w) (req : Request α) :
    Latest (w.sendRequest req true) := by
  have hs : (w.sendRequest req true).stamped = w.stamped ++ [w.record .sync req true] := by
    simp [stamped,(sendRequest_sends w req true).requests,record,RequestRecord.stamped]
  intro id i hf
  rw [find_sendRequest] at hf
  split at hf
  · cases hf
    rename_i hequiv
    refine ⟨w.stamped.length,_,⟨by rw [hs,List.getElem?_concat_length],
      ⟨rfl,rfl,SampleIdentity.equivalent_iff.mp hequiv⟩,fun m q' hm _ => ?_⟩,rfl⟩
    obtain ⟨hlt,-⟩ := List.getElem?_eq_some_iff.mp hm
    rw [hs,List.length_append] at hlt
    exact Nat.le_of_lt_succ hlt
  · obtain ⟨j,q,hq,hi⟩ := hw id i hf
    refine ⟨j,q,hq.mono hs (fun q' hq' hb => ?_),hi⟩
    rw [List.mem_singleton.mp hq'] at hb
    exact absurd (SampleIdentity.equivalent_iff.mpr hb.2.2) ‹_›

theorem latest_step {e : Event α TRep} (h : w.step T e = some w') (hw : Latest w) :
    Latest w' := by
  cases e with
  | sendRequest req sent =>
    cases h
    cases sent with
    | true => exact latest_sendRequest hw req
    | false =>
      refine latest_of_noNewEntry (w := w)
        ⟨fun _ _ => id,(sendRequest_sends w req false).stamped_subset⟩
        [w.record .sync req false] ?_ ?_ hw
      · simp [stamped,(sendRequest_sends w req false).requests,record,RequestRecord.stamped]
      · simp [record,RequestRecord.sent]
  | sendRequestRef req sent =>
    cases h
    refine latest_of_noNewEntry ⟨fun _ _ hf => ?_,(sendRequestRef_sends w req _).stamped_subset⟩
      [] ?_ (List.forall_mem_nil _) hw
    · cases sent <;> exact hf
    · simp [stamped,(sendRequestRef_sends w req _).requests,record,RequestRecord.stamped]
  | sendRequestAsync req sent =>
    cases h
    refine latest_of_noNewEntry ⟨fun _ _ hf => ?_,(sendRequestAsync_sends w req _).stamped_subset⟩
      [w.record (.async w.promises.length) req sent] ?_ ?_ hw
    · cases sent <;> exact hf
    · simp [stamped,(sendRequestAsync_sends w req _).requests,record,RequestRecord.stamped]
    · simp [record]
  | receiveNondataSamples enable =>
    cases h
    exact latest_of_noNewEntry (w := w) ⟨fun _ _ => id,List.Subset.refl _⟩ []
      (List.append_nil _).symm (List.forall_mem_nil _) hw
  | receiveReply reply id during between =>
    obtain ⟨⟨w₁,ret,r⟩,hrecv,rfl⟩ := Option.map_eq_some_iff.mp h
    have hr := receiveReply_around hrecv
    have hw₁ : Latest w₁ := latest_of_noNewEntry hr.noNewEntry []
      (by rw [hr.sends.stamped,List.append_nil]) (List.forall_mem_nil _) hw
    have hrecord := recordReturn_sends w₁ id ret r
    exact latest_of_noNewEntry
      ⟨fun _ _ hf => by rwa [recordReturn_impl] at hf,hrecord.stamped_subset⟩ []
      (by rw [hrecord.stamped,List.append_nil]) (List.forall_mem_nil _) hw₁
  | env e =>
    have hsame := envStep_unchanged h
    exact latest_of_noNewEntry hsame.noNewEntry []
      (by rw [hsame.sends.stamped,List.append_nil]) (List.forall_mem_nil _) hw

theorem latest_run {guid : DDS.GUID} {es : List (Event α TRep)}
    (h : (machine T).run (init guid) es = some w) : Latest w :=
  Machine.run_preserves (P := Latest) latest_step h (latest_init guid)

theorem Numbering.low_of_stamped (hw : Numbering w) {j : ℕ} {q : RequestRecord}
    (hj : w.stamped[j]? = some q) : q.requestId.sequenceNumber.low = .ofNat (j+1) := by
  have hlows := congrArg (fun l => l[j]?) hw.lows
  obtain ⟨hlt,-⟩ := List.getElem?_eq_some_iff.mp hj
  rw [List.getElem?_map,hj,List.getElem?_map,List.getElem?_range' hlt,Option.map_some,
    Option.map_some,Option.some.injEq] at hlows
  rw [hlows,Nat.one_mul,Nat.add_comm]

theorem Numbering.low_eq_iff (hw : Numbering w) {j k : ℕ} {q q' : RequestRecord}
    (hj : w.stamped[j]? = some q) (hk : w.stamped[k]? = some q') :
    q.requestId.sequenceNumber.low = q'.requestId.sequenceNumber.low ↔
      j%2^32 = k%2^32 := by
  rw [hw.low_of_stamped hj,hw.low_of_stamped hk,← UInt32.toNat_inj,UInt32.toNat_ofNat',
    UInt32.toNat_ofNat']
  omega

theorem Received.entry {reply reply' : Sample TRep} {id : SampleIdentity} {fs : List (Env TRep)}
    (h : Received T w reply id fs w' true reply') :
    w.impl.id2idMap.find id = some reply'.info.relatedIdentity := by
  cases h with
  | delivered hrun hf htake =>
    rw [← (envRun_unchanged hrun).id2idMap,hf,(T.take_some htake).1]

/-- With no bound on the number of requests: what `receive_reply` returns for the `k`-th
request answers the latest synchronous one whose number is congruent to `k`. -/
theorem receiveReply_latest {guid : DDS.GUID} {es : List (Event α TRep)}
    (h : (machine T).run (init guid) es = some w) {k : ℕ} {q : RequestRecord}
    (hk : w.stamped[k]? = some q) {reply sample : Sample TRep} {during between : List (Env TRep)}
    (hrecv : w.receiveReply T reply q.requestId during between = some (w',true,sample)) :
    ∃ j p, w.stamped[j]? = some p ∧ p.path = .sync ∧ j%2^32 = k%2^32 ∧
      p.identity = some sample.info.relatedIdentity ∧
      ∀ m p', w.stamped[m]? = some p' → p'.path = .sync → p'.sent → m%2^32 = k%2^32 → m ≤ j := by
  have hn := numbering_run h
  obtain ⟨j,p,hlatest,hi⟩ := latest_run h _ _ (receiveReply_around hrecv).entry
  refine ⟨j,p,hlatest.stamped,hlatest.bears.1,
    (hn.low_eq_iff hlatest.stamped hk).mp hlatest.bears.2.2,hi,fun m p' hm hpath hsent hmk => ?_⟩
  exact hlatest.last m p' hm ⟨hpath,hsent,(hn.low_eq_iff hm hk).mpr hmk⟩

def twoPending : List (Event Unit Unit) :=
  [.sendRequest ⟨.initial,()⟩ true,.sendRequestAsync ⟨.initial,()⟩ true,
    .sendRequest ⟨.initial,()⟩ true,
    .env (.arrive ⟨(),true,⟨⟨.zero 16⟩,.nth 2⟩,⟨⟨.zero 16⟩,.nth 3⟩⟩),
    .env (.arrive ⟨(),true,⟨⟨.zero 16⟩,.nth 1⟩,⟨⟨.zero 16⟩,.nth 1⟩⟩)]

theorem receiveReply_latest_first : ∃ (w w' : Session Unit Unit) (sample : Sample Unit)
    (q : RequestRecord),
    (machine .oldest).run (init ⟨.zero 16⟩) twoPending = some w ∧ w.stamped[0]? = some q ∧
    w.receiveReply .oldest ⟨(),⟨false,RequesterImpl.nullIdentity,RequesterImpl.nullIdentity,0⟩⟩
      q.requestId [] [] = some (w',true,sample) ∧
    ∃ j p, w.stamped[j]? = some p ∧ j%2^32 = 0%2^32 ∧
      p.identity = some sample.info.relatedIdentity := by
  obtain ⟨w,q,hrun,hq,w',sample,hrecv⟩ : ∃ (w : Session Unit Unit) (q : RequestRecord),
      (machine .oldest).run (init ⟨.zero 16⟩) twoPending = some w ∧ w.stamped[0]? = some q ∧
      ∃ w' sample, w.receiveReply .oldest
        ⟨(),⟨false,RequesterImpl.nullIdentity,RequesterImpl.nullIdentity,0⟩⟩
        q.requestId [] [] = some (w',true,sample) := ⟨_,_,rfl,rfl,_,_,rfl⟩
  obtain ⟨j,p,hj,-,hmod,hp,-⟩ := receiveReply_latest hrun hq hrecv
  exact ⟨w,w',sample,q,hrun,hq,hrecv,j,p,hj,hmod,hp⟩

end Session
end DdsRpc
