import DdsRpc.Construction
import DdsRpc.ParamsValues
set_option autoImplicit false

namespace DdsRpc
namespace Application
open Params
variable {DW DR S : Type} {P : Store DW DR S} {w w' u : Application S}

/-- The endpoint is on the participant it was given, else on the default one. -/
def Placed (w : Application S) (endpoint : Endpoint) : Prop :=
  match endpoint.given with
  | some p => endpoint.participant = some p
  | none => ∀ p, endpoint.participant = some p → w.default.participant = some p

structure Grows (w w' : Application S) : Prop where
  domainid : w'.default.domainid = w.default.domainid
  participants : w.participants <+: w'.participants
  default : ∀ p, w.default.participant = some p → w'.default.participant = some p
  made : w.default.participant = none → ∀ p, w'.default.participant = some p →
    w'.participants[p]? = some w.default.domainid
  endpoints : ∀ endpoint ∈ w'.endpoints, endpoint ∈ w.endpoints ∨ w'.Placed endpoint

theorem Placed.grows {endpoint : Endpoint} (h : w.Placed endpoint) (hw : Grows w w') :
    w'.Placed endpoint := by
  unfold Placed at h ⊢
  split at h
  · exact h
  · exact fun p hp => hw.default p (h p hp)

theorem Grows.refl (w : Application S) : Grows w w :=
  ⟨rfl,List.prefix_refl _,fun _ h => h,fun hn _ hp => absurd (hn.symm.trans hp) nofun,
    fun _ h => .inl h⟩

theorem Grows.trans (h : Grows w u) (h' : Grows u w') : Grows w w' where
  domainid := h'.domainid.trans h.domainid
  participants := h.participants.trans h'.participants
  default p hp := h'.default p (h.default p hp)
  made hn p hp := by
    cases hu : u.default.participant with
    | none => rw [h'.made hu p hp,h.domainid]
    | some q =>
      obtain rfl : q = p := Option.some.inj ((h'.default q hu).symm.trans hp)
      exact h'.participants.getElem?_eq_some (h.made hn q hu)
  endpoints endpoint he := by
    rcases h'.endpoints endpoint he with he | he
    · rcases h.endpoints endpoint he with he | he
      · exact .inl he
      · exact .inr (he.grows h')
    · exact .inr he

theorem grows_params (w : Application S) (s : S) : Grows w { w with params := s } :=
  ⟨rfl,List.prefix_refl _,fun _ h => h,fun hn _ hp => absurd (hn.symm.trans hp) nofun,
    fun _ h => .inl h⟩

theorem grows_createParticipant (w : Application S) (domainid : Int) :
    Grows w (w.createParticipant domainid) :=
  ⟨rfl,List.prefix_append _ _,fun _ h => h,fun hn _ hp => absurd (hn.symm.trans hp) nofun,
    fun _ h => .inl h⟩

theorem grows_get (w : Application S) (created : Bool) : Grows w (w.get created) := by
  unfold get
  split
  · exact .refl w
  · rename_i hn
    split
    · refine ⟨rfl,List.prefix_append _ _,fun _ hp => absurd (hn.symm.trans hp) nofun,
        fun _ p hp => ?_,fun _ h => .inl h⟩
      cases hp
      simp [createParticipant]
    · exact .refl w

theorem toConnextParams_cases {role : Role} {x : Nat} {created : Bool} {endpoint : Endpoint}
    (h : w.toConnextParams P role x created = some (endpoint,w')) :
    Grows w w' ∧ w'.Placed endpoint := by
  obtain ⟨part,-,h⟩ := Option.bind_eq_some_iff.mp h
  obtain ⟨service_name,-,h⟩ := Option.bind_eq_some_iff.mp h
  cases part with
  | some p =>
    cases h
    exact ⟨.refl w,rfl⟩
  | none =>
    cases h
    exact ⟨grows_get w created,fun p hp => hp⟩

theorem grows_construct {role : Role} {x : Nat} {c : Connected}
    (h : w.construct P role x c = some w') : Grows w w' := by
  obtain ⟨⟨endpoint,u⟩,hu,h⟩ := Option.bind_eq_some_iff.mp h
  obtain ⟨hgrows,hplaced⟩ := toConnextParams_cases hu
  cases h
  split
  · refine ⟨hgrows.domainid,hgrows.participants,hgrows.default,hgrows.made,fun e he => ?_⟩
    rcases List.mem_append.mp he with he | he
    · exact hgrows.endpoints e he
    · rw [List.mem_singleton.mp he]
      exact .inr hplaced
  · exact hgrows

theorem grows_clientImpl {params_ : Nat} {c : Connected}
    (h : w.clientImpl P params_ c = some w') : Grows w w' := by
  obtain ⟨⟨temp,s⟩,-,h⟩ := Option.bind_eq_some_iff.mp h
  obtain ⟨u,hu,h⟩ := Option.bind_eq_some_iff.mp h
  obtain ⟨s',-,h⟩ := Option.bind_eq_some_iff.mp h
  cases h
  exact ((grows_params w s).trans (grows_construct hu)).trans (grows_params u s')

theorem grows_dispatcher {x : Nat} {c : Connected} (h : w.dispatcher P x c = some w') :
    Grows w w' := by
  obtain ⟨⟨temp,s⟩,-,h⟩ := Option.bind_eq_some_iff.mp h
  obtain ⟨u,hu,h⟩ := Option.bind_eq_some_iff.mp h
  obtain ⟨s',-,h⟩ := Option.bind_eq_some_iff.mp h
  cases h
  exact ((grows_params w s).trans (grows_construct hu)).trans (grows_params u s')

theorem ofKind_eq_some {x : Nat} {k : Kind} {next : Option (Application S)}
    (h : w.ofKind P x k next = some w') : next = some w' := by
  unfold ofKind at h
  split at h
  · exact h
  · cases h

def Event.domainid : Event DW DR → Option Int
  | .setDomainid domainid => some domainid
  | _ => none

/-- The domain that `set_domainid` was last given, at first 0. -/
def lastDomainid (es : List (Event DW DR)) : Int :=
  es.foldl (fun domainid e => e.domainid.getD domainid) 0

theorem step_cases {e : Event DW DR} (h : (machine P).step w e = some w') :
    (∃ domainid, e.domainid = some domainid ∧ w' = w.setDomainid domainid) ∨
      (e.domainid = none ∧ Grows w w') := by
  cases e with
  | setDomainid domainid =>
    cases h
    exact .inl ⟨domainid,rfl,rfl⟩
  | params e =>
    obtain ⟨s,-,h⟩ := Option.bind_eq_some_iff.mp h
    cases h
    exact .inr ⟨rfl,grows_params w s⟩
  | get created | server created =>
    cases h
    exact .inr ⟨rfl,grows_get w created⟩
  | createParticipant domainid =>
    cases h
    exact .inr ⟨rfl,grows_createParticipant w domainid⟩
  | requester x c | replier x c => exact .inr ⟨rfl,grows_construct (ofKind_eq_some h)⟩
  | client x c =>
    obtain ⟨s,-,h⟩ := Option.bind_eq_some_iff.mp (ofKind_eq_some h)
    exact .inr ⟨rfl,(grows_params w s).trans (grows_clientImpl h)⟩
  | defaultClient c =>
    obtain ⟨s,-,h⟩ := Option.bind_eq_some_iff.mp h
    exact .inr ⟨rfl,(grows_params w s).trans (grows_clientImpl h)⟩
  | service x c => exact .inr ⟨rfl,grows_dispatcher (ofKind_eq_some h)⟩

theorem domainid_run {s : S} {es : List (Event DW DR)}
    (h : (machine P).run (init s) es = some w) : w.default.domainid = lastDomainid es := by
  suffices hgen : ∀ (es : List (Event DW DR)) (u : Application S),
      (machine P).run u es = some w →
        w.default.domainid = es.foldl (fun domainid e => e.domainid.getD domainid)
          u.default.domainid from hgen es _ h
  intro es
  induction es with
  | nil =>
    intro u h
    cases h
    rfl
  | cons e es ih =>
    intro u h
    obtain ⟨v,hv,hrun⟩ := Machine.run_cons.mp h
    rw [ih v hrun,List.foldl_cons]
    rcases step_cases hv with ⟨domainid,he,rfl⟩ | ⟨he,hgrows⟩
    · rw [he]
      rfl
    · rw [he,hgrows.domainid]
      rfl

theorem default_run {es : List (Event DW DR)} (h : (machine P).run w es = some w') {p : Nat}
    {domainid : Int} (hp : w.default.participant = some p)
    (hd : w.participants[p]? = some domainid) :
    w'.default.participant = some p ∧ w'.participants[p]? = some domainid := by
  refine Machine.run_preserves (P := fun v : Application S => v.default.participant = some p ∧
    v.participants[p]? = some domainid) ?_ h ⟨hp,hd⟩
  rintro v e v' hv ⟨hpv,hdv⟩
  rcases step_cases hv with ⟨_,-,rfl⟩ | ⟨-,hgrows⟩
  · exact ⟨hpv,hdv⟩
  · exact ⟨hgrows.default p hpv,hgrows.participants.getElem?_eq_some hdv⟩

theorem placed_run {s : S} {es : List (Event DW DR)}
    (h : (machine P).run (init s) es = some w) : ∀ endpoint ∈ w.endpoints, w.Placed endpoint := by
  refine Machine.run_preserves
    (P := fun v : Application S => ∀ endpoint ∈ v.endpoints, v.Placed endpoint) ?_ h nofun
  intro v e v' hv hplaced endpoint he
  rcases step_cases hv with ⟨_,-,rfl⟩ | ⟨-,hgrows⟩
  · exact hplaced endpoint he
  · rcases hgrows.endpoints endpoint he with he | he
    · exact (hplaced endpoint he).grows hgrows
    · exact he

/-- The default participant is made once, in the domain that was set when it was made, and no
later `set_domainid` moves it. All endpoints that were given no participant are on it. -/
theorem defaultEndpoints_domain {s : S} {es fs : List (Event DW DR)}
    (h : (machine P).run (init s) es = some w) (h' : (machine P).run w fs = some w') {p : Nat}
    (hp : w.default.participant = some p) :
    w'.default.participant = some p ∧
    (∃ before u e v after, es = before ++ e :: after ∧
      (machine P).run (init s) before = some u ∧ u.default.participant = none ∧
      (machine P).step u e = some v ∧ v.default.participant = some p ∧
      (machine P).run v after = some w ∧
      w'.participants[p]? = some (lastDomainid before) ∧
      ∀ endpoint ∈ w'.endpoints, endpoint.given = none → endpoint.participant.isSome →
        w'.domain endpoint = some (lastDomainid before)) ∧
    ∀ endpoint ∈ w'.endpoints, endpoint.given = none → ∀ q, endpoint.participant = some q →
      q = p := by
  have hrun := Machine.run_append.mpr ⟨w,h,h'⟩
  obtain ⟨before,u,e,v,after,rfl,hbefore,hnone,hstep,hmade,hafter⟩ := Machine.exists_first
    (Q := fun u : Application S => u.default.participant = some p) h nofun hp
  have hu : u.default.participant = none := by
    cases hu : u.default.participant with
    | none => rfl
    | some q =>
      rcases step_cases hstep with ⟨_,-,rfl⟩ | ⟨-,hgrows⟩
      · exact absurd hmade hnone
      · rw [hgrows.default q hu] at hmade
        exact absurd (hu.trans hmade) hnone
  have hdomain : v.participants[p]? = some (lastDomainid before) := by
    rcases step_cases hstep with ⟨_,-,rfl⟩ | ⟨-,hgrows⟩
    · exact absurd hmade hnone
    · rw [hgrows.made hu p hmade,domainid_run hbefore]
  obtain ⟨hp',hd'⟩ := default_run (Machine.run_append.mpr ⟨w,hafter,h'⟩) hmade hdomain
  have hsame : ∀ endpoint ∈ w'.endpoints, endpoint.given = none →
      ∀ q, endpoint.participant = some q → q = p := by
    intro endpoint he hgiven q hq
    have hplaced := placed_run hrun endpoint he
    rw [Placed,hgiven] at hplaced
    exact Option.some.inj ((hplaced q hq).symm.trans hp')
  refine ⟨hp',⟨before,u,e,v,after,rfl,hbefore,hu,hstep,hmade,hafter,hd',
    fun endpoint he hgiven hsome => ?_⟩,hsame⟩
  obtain ⟨q,hq⟩ := Option.isSome_iff_exists.mp hsome
  rw [domain,hq,hsame endpoint he hgiven q hq]
  exact hd'

/-- Of three calls of `set_domainid` the second one counts for the client. -/
theorem defaultEndpoints_domain_late : ∃ w w' : Application (World Nat Nat),
    (machine (World.store .above)).run (init .init)
      [.setDomainid 7,.setDomainid 65,.get true] = some w ∧
    (machine (World.store .above)).run w [.setDomainid 9,.defaultClient ⟨true,true⟩] = some w' ∧
    w'.endpoints.map (fun endpoint => (endpoint.given,endpoint.participant)) =
      [(none,some 0)] ∧
    w'.default.participant = some 0 ∧ w'.participants[0]? = some 65 := by
  obtain ⟨w,hw,w',hw',hends,hp⟩ : ∃ w : Application (World Nat Nat),
      (machine (World.store .above)).run (init .init)
        [.setDomainid 7,.setDomainid 65,.get true] = some w ∧
      ∃ w', (machine (World.store .above)).run w
          [.setDomainid 9,.defaultClient ⟨true,true⟩] = some w' ∧
        w'.endpoints.map (fun endpoint => (endpoint.given,endpoint.participant)) =
          [(none,some 0)] ∧ w.default.participant = some 0 :=
    ⟨_,rfl,_,rfl,rfl,rfl⟩
  obtain ⟨hp',⟨before,u,e,v,after,hes,hu,hnone,hstep,hmade,-,hdomain,-⟩,-⟩ :=
    defaultEndpoints_domain hw hw' hp
  refine ⟨w,w',hw,hw',hends,hp',hdomain.trans (congrArg some ?_)⟩
  -- The participant is made by the last of the three steps.
  rcases before with _ | ⟨_,_ | ⟨_,_ | ⟨_,before⟩⟩⟩
  · cases hes
    cases hu
    cases hstep
    cases hmade
  · cases hes
    cases hu
    cases hstep
    cases hmade
  · cases hes
    rfl
  · simp at hes

end Application
end DdsRpc
