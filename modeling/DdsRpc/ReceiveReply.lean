import DdsRpc.Correlation
set_option autoImplicit false

namespace DdsRpc
open Connext

namespace Session
variable {α TRep : Type} {T : TakeReply TRep}

theorem waitForReplies_of_reader {w : Session α TRep} (h : w.reader.isEmpty = false)
    (during : List (Env TRep)) : w.waitForReplies T during = some (w,true) := by
  cases during <;> simp [waitForReplies,h]

/-- The state in which `take_reply` is called, if the wait has ended with a reply. -/
def atTake (T : TakeReply TRep) (w : Session α TRep) (during between : List (Env TRep)) :
    Option (Session α TRep) :=
  match w.waitForReplies T during with
  | some (w₁,true) => (environment T).run w₁ between
  | _ => none

theorem atTake_unchanged {w w₁ : Session α TRep} {during between : List (Env TRep)}
    (h : w.atTake T during between = some w₁) : AppUnchanged w w₁ := by
  unfold atTake at h
  split at h
  · rename_i u hwait
    have hrun := run_waited hwait
    exact (envRun_unchanged hrun).trans (envRun_unchanged h)
  · cases h

theorem atTake_of_reader {w : Session α TRep} (h : w.reader.isEmpty = false) :
    w.atTake T [] [] = some w := by
  rw [atTake,waitForReplies_of_reader h]
  rfl

theorem receiveReply_atTake {w w₁ : Session α TRep} {during between : List (Env TRep)}
    {id : SampleIdentity} {i : DDS.SampleIdentity} (hf : w.impl.id2idMap.find id = some i)
    (h : w.atTake T during between = some w₁) (reply : Sample TRep) :
    w.receiveReply T reply id during between =
      some ({ w₁ with impl := (w₁.impl.takeRelated T reply id).1 },
        (w₁.impl.takeRelated T reply id).2) := by
  unfold atTake at h
  split at h
  · rename_i u hwait
    simp [receiveReply,hf,hwait,h]
  · cases h

theorem atTake_or (T : TakeReply TRep) (w : Session α TRep) (id : SampleIdentity)
    (during between : List (Env TRep)) :
    (∀ i, w.impl.id2idMap.find id = some i → w.atTake T during between = none) ∨
      ∃ i w₁, w.impl.id2idMap.find id = some i ∧ w.atTake T during between = some w₁ := by
  cases hf : w.impl.id2idMap.find id with
  | none => exact .inl (fun i hi => by cases hi)
  | some i =>
    cases hat : w.atTake T during between with
    | none => exact .inl (fun _ _ => rfl)
    | some w₁ => exact .inr ⟨i,w₁,rfl,rfl⟩

theorem receiveReply_of_not_atTake {w w' : Session α TRep} {during between : List (Env TRep)}
    {id : SampleIdentity} {reply reply' : Sample TRep} {ret : Bool}
    (h : ∀ i, w.impl.id2idMap.find id = some i → w.atTake T during between = none)
    (hrecv : w.receiveReply T reply id during between = some (w',ret,reply')) :
    ret = false ∧ w'.impl.id2idMap = w.impl.id2idMap := by
  cases hf : w.impl.id2idMap.find id with
  | none =>
    simp only [receiveReply,hf,Option.isSome_none,Bool.false_eq_true,if_false,
      Option.some.injEq,Prod.mk.injEq] at hrecv
    obtain ⟨rfl,rfl,-⟩ := hrecv
    exact ⟨rfl,rfl⟩
  | some i =>
    have hnone := h i hf
    unfold atTake at hnone
    simp only [receiveReply,hf,Option.isSome_some,if_true] at hrecv
    obtain ⟨⟨u,woke⟩,hwait,hrecv⟩ := Option.bind_eq_some_iff.mp hrecv
    cases woke with
    | true =>
      rw [hwait] at hnone
      simp [hnone] at hrecv
    | false =>
      simp only [Bool.false_eq_true,if_false,Option.some.injEq,Prod.mk.injEq] at hrecv
      obtain ⟨rfl,rfl,-⟩ := hrecv
      have hrun := run_waited hwait
      exact ⟨rfl,(envRun_unchanged hrun).id2idMap⟩

/-- After the wait: a failed take erases the entry unless the caller's own sample is
suppressed. -/
theorem takeRelated_keeps_iff {impl : RequesterImpl α TRep} {id : SampleIdentity}
    {i : DDS.SampleIdentity} (hf : impl.id2idMap.find id = some i) (reply : Sample TRep) :
    ((impl.takeRelated T reply id).2.1 = false →
      (impl.takeRelated T reply id).1.id2idMap = impl.id2idMap) ↔
    (∃ r ∈ impl.super.reader, r.info.relatedIdentity = i) ∨
      impl.suppressInvalid && !reply.info.validData := by
  cases ht : T.take impl.super.reader i with
  | some p =>
    obtain ⟨r,rest⟩ := p
    have hmem : r ∈ impl.super.reader := (T.take_some ht).2.mem_iff.mpr List.mem_cons_self
    refine iff_of_true ?_ (.inl ⟨r,hmem,(T.take_some ht).1⟩)
    rw [RequesterImpl.takeRelated_of_take hf ht]
    split
    · exact fun _ => rfl
    · exact fun h => (nomatch h)
  | none =>
    have hnone : ¬ ∃ r ∈ impl.super.reader, r.info.relatedIdentity = i :=
      fun ⟨r,hr,hrel⟩ => T.take_none ht r hr hrel
    rw [RequesterImpl.takeRelated_of_not_take hf ht]
    simp only [hnone,false_or]
    split
    · exact iff_of_true (fun _ => rfl) ‹_›
    · exact iff_of_false (fun h => StdMap.erase_ne_of_find hf (h rfl)) ‹_›

def EntryKept (T : TakeReply TRep) (w : Session α TRep) (reply : Sample TRep)
    (id : SampleIdentity) (during between : List (Env TRep)) : Prop :=
  ∀ i w₁, w.impl.id2idMap.find id = some i → w.atTake T during between = some w₁ →
    (∃ r ∈ w₁.reader, r.info.relatedIdentity = i) ∨
      w.impl.suppressInvalid && !reply.info.validData

theorem receiveReply_keeps_iff {w w' : Session α TRep} {reply reply' : Sample TRep}
    {id : SampleIdentity} {during between : List (Env TRep)} {ret : Bool}
    (hrecv : w.receiveReply T reply id during between = some (w',ret,reply')) :
    (ret = false → w'.impl.id2idMap = w.impl.id2idMap) ↔
      EntryKept T w reply id during between := by
  rcases w.atTake_or T id during between with hnot | ⟨i,w₁,hf,hat⟩
  · refine iff_of_true (fun _ => (receiveReply_of_not_atTake hnot hrecv).2) ?_
    intro i w₁ hf hat
    rw [hnot i hf] at hat
    cases hat
  · have hsame := atTake_unchanged hat
    have hf₁ : w₁.impl.id2idMap.find id = some i := by rw [hsame.id2idMap,hf]
    have hkept : EntryKept T w reply id during between ↔
        (∃ r ∈ w₁.reader, r.info.relatedIdentity = i) ∨
          w₁.impl.suppressInvalid && !reply.info.validData := by
      simp [EntryKept,hf,hat,hsame.suppressInvalid]
    rw [receiveReply_atTake hf hat] at hrecv
    simp only [Option.some.injEq,Prod.mk.injEq] at hrecv
    obtain ⟨rfl,hret⟩ := hrecv
    obtain rfl : (w₁.impl.takeRelated T reply id).2.1 = ret := by rw [hret]
    rw [hkept,← takeRelated_keeps_iff hf₁ reply,hsame.id2idMap]

/-- The loop of `test_synchronous_api`: one sample serves every try. -/
def retry (T : TakeReply TRep) (id : SampleIdentity) :
    Session α TRep → Sample TRep → List (List (Env TRep) × List (Env TRep)) →
      Option (Session α TRep × Bool × Sample TRep)
  | w,reply,[] => some (w,false,reply)
  | w,reply,(during,between) :: tries => do
    let (w,ret,reply) ← w.receiveReply T reply id during between
    if ret then some (w,true,reply) else retry T id w reply tries

def RetryKept (T : TakeReply TRep) (id : SampleIdentity) :
    Session α TRep → Sample TRep → List (List (Env TRep) × List (Env TRep)) → Prop
  | _,_,[] => True
  | w,reply,(during,between) :: tries => EntryKept T w reply id during between ∧
    ∀ w₁ reply₁, w.receiveReply T reply id during between = some (w₁,false,reply₁) →
      RetryKept T id w₁ reply₁ tries

theorem retry_keeps {id : SampleIdentity} {w w' : Session α TRep} {reply reply' : Sample TRep}
    {tries : List (List (Env TRep) × List (Env TRep))}
    (hkept : RetryKept T id w reply tries) (h : retry T id w reply tries = some (w',false,reply')) :
    w'.impl.id2idMap = w.impl.id2idMap := by
  induction tries generalizing w reply with
  | nil =>
    cases h
    rfl
  | cons try₁ tries ih =>
    obtain ⟨⟨w₁,ret,reply₁⟩,hrecv,h⟩ := Option.bind_eq_some_iff.mp h
    cases ret with
    | true => simp at h
    | false =>
      rw [ih (hkept.2 w₁ reply₁ hrecv) h]
      exact (receiveReply_keeps_iff hrecv).mpr hkept.1 rfl

theorem receiveReply_of_reader {w : Session α TRep} {id : SampleIdentity}
    {i : DDS.SampleIdentity} (hf : w.impl.id2idMap.find id = some i) {r : Sample TRep}
    (hr : r ∈ w.reader) (hi : r.info.relatedIdentity = i)
    (hvalid : ∀ s ∈ w.reader, s.info.relatedIdentity = i → s.info.validData)
    (reply : Sample TRep) :
    ∃ w' s, w.receiveReply T reply id [] [] = some (w',true,s) ∧ s.info.relatedIdentity = i ∧
      s.info.validData := by
  obtain ⟨s,rest,ht⟩ := T.exists_take hr hi
  obtain ⟨hrel,hperm⟩ := T.take_some ht
  have hs := hvalid s (hperm.mem_iff.mpr List.mem_cons_self) hrel
  have hne : w.reader.isEmpty = false := by
    cases hw : w.reader with
    | nil => simp [hw] at hr
    | cons => rfl
  rw [receiveReply_atTake hf (atTake_of_reader hne),RequesterImpl.takeRelated_of_take hf ht]
  simp only [hs,Bool.not_true,Bool.and_false,Bool.false_eq_true,if_false]
  exact ⟨_,s,rfl,hrel,hs⟩

/-- A failed call leaves the table as it was exactly when its entry is kept; and as long
as that holds a loop of calls does not lose the reply. -/
theorem receiveReply_pending_iff (T : TakeReply TRep) (w : Session α TRep)
    (id : SampleIdentity) (reply : Sample TRep) :
    (∀ during between w' ret reply',
      w.receiveReply T reply id during between = some (w',ret,reply') →
      ((ret = false → w'.impl.id2idMap = w.impl.id2idMap) ↔
        EntryKept T w reply id during between)) ∧
    (∀ tries w' reply', RetryKept T id w reply tries →
      retry T id w reply tries = some (w',false,reply') →
      w'.impl.id2idMap = w.impl.id2idMap ∧
      ∀ i r, w.impl.id2idMap.find id = some i → r ∈ w'.reader → r.info.relatedIdentity = i →
        (∀ s ∈ w'.reader, s.info.relatedIdentity = i → s.info.validData) →
        ∃ w'' s, w'.receiveReply T reply' id [] [] = some (w'',true,s) ∧
          s.info.relatedIdentity = i ∧ s.info.validData) := by
  refine ⟨fun _ _ _ _ _ => receiveReply_keeps_iff,fun tries w' reply' hkept h => ?_⟩
  have hmap := retry_keeps hkept h
  exact ⟨hmap,fun i r hf hr hi hvalid =>
    receiveReply_of_reader (hmap ▸ hf) hr hi hvalid reply'⟩

def overlappingRun : List (Event Unit Unit) :=
  [.sendRequest ⟨.initial,()⟩ true,.sendRequest ⟨.initial,()⟩ true,
    .env (.arrive ⟨(),true,⟨⟨.zero 16⟩,.nth 1⟩,⟨⟨.zero 16⟩,.nth 1⟩⟩)]

def usedSample : Sample Unit := ⟨(),⟨true,⟨⟨.zero 16⟩,.nth 9⟩,⟨⟨.zero 16⟩,.nth 9⟩,9⟩⟩

def emptySample : Sample Unit :=
  { usedSample with info := { usedSample.info with validData := false } }

theorem receiveReply_keeps_entry : ∃ w w' : Session Unit Unit, ∃ reply',
    (machine .oldest).run (init ⟨.zero 16⟩) overlappingRun = some w ∧
    w.receiveReply .oldest emptySample (RequestHeader.initial.requestId.withLow 2) [] [] =
      some (w',false,reply') ∧ w'.impl.id2idMap = w.impl.id2idMap := by
  have hsome : ((machine .oldest).run (init ⟨.zero 16⟩) overlappingRun).any (fun w =>
      w.impl.suppressInvalid && (w.receiveReply .oldest emptySample
        (RequestHeader.initial.requestId.withLow 2) [] []).any (fun p => !p.2.1)) := by decide
  obtain ⟨w,hw,hcall⟩ := (Option.any_eq_true _ _).mp hsome
  obtain ⟨hsup,hcall⟩ := Bool.and_eq_true_iff.mp hcall
  obtain ⟨⟨w',ret,reply'⟩,hrecv,hret⟩ := (Option.any_eq_true _ _).mp hcall
  obtain rfl : ret = false := by simpa using hret
  have hkept : EntryKept .oldest w emptySample (RequestHeader.initial.requestId.withLow 2) [] [] :=
    fun _ _ _ _ => .inr (by rw [hsup]; rfl)
  exact ⟨w,w',reply',hw,hrecv,
    ((receiveReply_pending_iff .oldest w _ emptySample).1 [] [] w' false reply' hrecv).mpr
      hkept rfl⟩

theorem receiveReply_loses_entry : ∃ w w' : Session Unit Unit, ∃ reply',
    (machine .oldest).run (init ⟨.zero 16⟩) overlappingRun = some w ∧
    w.receiveReply .oldest usedSample (RequestHeader.initial.requestId.withLow 2) [] [] =
      some (w',false,reply') ∧ w'.impl.id2idMap ≠ w.impl.id2idMap :=
  ⟨_,_,_,rfl,rfl,StdMap.erase_ne_of_find (v := ⟨⟨.zero 16⟩,.nth 2⟩) rfl⟩

/-- The first state in which the wait can end, if only replies arrive. -/
def afterFirst (w : Session α TRep) (arrivals : List (Arrival TRep)) : Session α TRep :=
  match w.reader,arrivals with
  | [],a :: _ => w.arrive a
  | _,_ => w

theorem waitForReplies_arrivals (w : Session α TRep) (arrivals : List (Arrival TRep)) :
    w.waitForReplies T (arrivals.map .arrive) =
      some (w.afterFirst arrivals,!(w.afterFirst arrivals).reader.isEmpty) := by
  cases hr : w.reader with
  | cons r rs =>
    have hne : w.reader.isEmpty = false := by rw [hr]; rfl
    simp only [afterFirst,hr,waitForReplies_of_reader hne,List.isEmpty_cons,Bool.not_false]
  | nil =>
    cases arrivals with
    | nil => simp only [afterFirst,hr,List.map_nil,waitForReplies]
    | cons a as =>
      have hne : (w.arrive a).reader.isEmpty = false := by
        simp [arrive,Requester.arrive,reader]
      simp only [afterFirst,hr,List.map_cons,waitForReplies,List.isEmpty_nil,if_true,envStep,
        Option.bind_some,waitForReplies_of_reader hne,hne,Bool.not_false]

def AnsweredInTime (w : Session α TRep) (i : DDS.SampleIdentity)
    (arrivals : List (Arrival TRep)) : Prop :=
  (∃ r ∈ w.reader, r.info.relatedIdentity = i ∧ r.info.validData) ∨
    ∃ a ∈ arrivals, a.relatedIdentity = i ∧ a.validData

def ReceivesOwn (T : TakeReply TRep) (w : Session α TRep) (reply : Sample TRep)
    (id : SampleIdentity) (i : DDS.SampleIdentity) (arrivals : List (Arrival TRep)) : Prop :=
  ∃ w' r, w.receiveReply T reply id (arrivals.map .arrive) [] = some (w',true,r) ∧
    r.info.relatedIdentity = i ∧ r.info.validData

/-- The replies that end the wait hold no valid one for the take. -/
def Preempted (T : TakeReply TRep) (w : Session α TRep) (i : DDS.SampleIdentity)
    (arrivals : List (Arrival TRep)) : Prop :=
  ∀ r rest, T.take (w.afterFirst arrivals).reader i = some (r,rest) → r.info.validData = false

theorem receivesOwn_iff {w : Session α TRep} {id : SampleIdentity} {i : DDS.SampleIdentity}
    (hf : w.impl.id2idMap.find id = some i) (reply : Sample TRep)
    (arrivals : List (Arrival TRep)) :
    ReceivesOwn T w reply id i arrivals ↔ ¬ Preempted T w i arrivals := by
  have hwait := waitForReplies_arrivals (T := T) w arrivals
  cases hne : (w.afterFirst arrivals).reader.isEmpty with
  | true =>
    have hnone : T.take (w.afterFirst arrivals).reader i = none := by
      cases ht : T.take (w.afterFirst arrivals).reader i with
      | none => rfl
      | some p =>
        have hperm := (T.take_some ht).2
        rw [List.isEmpty_iff.mp hne] at hperm
        exact absurd hperm.symm.eq_nil (by simp)
    refine iff_of_false ?_ (fun hp => hp ?_)
    · rintro ⟨w',r,hrecv,-⟩
      simp [receiveReply,hf,hwait,hne] at hrecv
    · intro r rest ht
      rw [hnone] at ht
      cases ht
  | false =>
    have hat : w.atTake T (arrivals.map .arrive) [] = some (w.afterFirst arrivals) := by
      simp [atTake,hwait,hne]
    have hf₁ : (w.afterFirst arrivals).impl.id2idMap.find id = some i := by
      rw [(atTake_unchanged hat).id2idMap,hf]
    unfold ReceivesOwn Preempted
    rw [receiveReply_atTake hf hat]
    cases ht : T.take (w.afterFirst arrivals).reader i with
    | none =>
      rw [RequesterImpl.takeRelated_of_not_take hf₁ ht]
      split <;> simp
    | some p =>
      obtain ⟨r,rest⟩ := p
      rw [RequesterImpl.takeRelated_of_take hf₁ ht]
      cases hv : r.info.validData <;> split <;> simp_all [(T.take_some ht).1]

/-- A call misses a reply that is there in time exactly when another reply ended its wait. -/
theorem receivesOwn_of_answered_iff (T : TakeReply TRep) {w : Session α TRep}
    {id : SampleIdentity} {i : DDS.SampleIdentity} (hf : w.impl.id2idMap.find id = some i)
    (reply : Sample TRep) (arrivals : List (Arrival TRep)) :
    (AnsweredInTime w i arrivals → ReceivesOwn T w reply id i arrivals) ↔
      ¬ (AnsweredInTime w i arrivals ∧ Preempted T w i arrivals) := by
  rw [receivesOwn_iff hf,not_and]

def replyTo (n : Nat) : Arrival Unit := ⟨(),true,⟨⟨.zero 16⟩,.nth n⟩,⟨⟨.zero 16⟩,.nth n⟩⟩

theorem receivesOwn_alone : ∃ w : Session Unit Unit,
    (machine .oldest).run (init ⟨.zero 16⟩) [.sendRequest ⟨.initial,()⟩ true] = some w ∧
    ReceivesOwn .oldest w usedSample (RequestHeader.initial.requestId.withLow 1)
      ⟨⟨.zero 16⟩,.nth 1⟩ [replyTo 1] := by
  refine ⟨_,rfl,(receivesOwn_of_answered_iff .oldest rfl _ _).mpr ?_ (.inr ⟨_,.head _,rfl,rfl⟩)⟩
  rintro ⟨-,hp⟩
  cases hp _ _ rfl

theorem receivesOwn_fails : ∃ w : Session Unit Unit,
    (machine .oldest).run (init ⟨.zero 16⟩) overlappingRun = some w ∧
    w.impl.id2idMap.find (RequestHeader.initial.requestId.withLow 2) =
      some ⟨⟨.zero 16⟩,.nth 2⟩ ∧
    AnsweredInTime w ⟨⟨.zero 16⟩,.nth 2⟩ [replyTo 2] ∧
    ¬ ReceivesOwn .oldest w usedSample (RequestHeader.initial.requestId.withLow 2)
      ⟨⟨.zero 16⟩,.nth 2⟩ [replyTo 2] := by
  refine ⟨_,rfl,rfl,.inr ⟨_,.head _,rfl,rfl⟩,fun h => (receivesOwn_iff rfl _ _).mp h ?_⟩
  intro r rest h
  cases h

end Session
end DdsRpc
