import DdsRpc.DefaultParticipant
set_option autoImplicit false

namespace DdsRpc
namespace Params
variable {DW DR : Type}

abbrev Names := List (Option (Kind × NameSettings))

/-- The classes that have a setter or getter; `named` are those for the participant and the
service name. -/
def Kind.allows : Kind → Bool → Bool
  | .service,_ => true
  | .server,_ => false
  | _,named => named

def NameSettings.keep (r : NameSettings) (s : Setter DW DR) : NameSettings := (r.set s).getD r

namespace Names

def object (n : Names) (x : Nat) : Option (Kind × NameSettings) := n[x]?.join

def step (n : Names) : Op DW DR → Option Names
  | .construct k => some (n ++ [some (k,.unset)])
  | .copy other => (n.object other).map (fun o => n ++ [some o])
  | .assign x that => do
    let o ← n.object x
    let o' ← n.object that
    if o.1 = o'.1 then some (n.set x (some o')) else none
  | .set x s => do
    let o ← n.object x
    if o.1.allows s.ofClient then some (n.set x (some (o.1,o.2.keep s))) else none
  | .get x g => do
    let o ← n.object x
    if o.1.allows g.ofClient then some n else none
  | .putDefault x service_params => do
    let o ← n.object x
    let o' ← n.object service_params
    if o.1 = .server ∧ o'.1 = .service then some (n.set x (some (.server,o'.2))) else none
  | .takeDefault x => do
    let o ← n.object x
    if o.1 = .server then some (n ++ [some (.service,o.2)]) else none
  | .getDefault x _ => do
    let o ← n.object x
    if o.1 = .server then some n else none
  | .destroy x => do
    let _ ← n.object x
    some (n.set x none)

def get (n : Names) (x : Nat) (g : Getter) : Option (Value DW DR) := do
  let o ← n.object x
  if o.1.allows true then o.2.get g else none

def store (DW DR : Type) : Store DW DR Names where
  step := step
  get := get
  kind n x := (n.object x).map Prod.fst
  size := List.length

theorem step_set_other {n n' : Names} {x : Nat} {s : Setter DW DR} (hs : s.ofClient = false)
    (h : n.step (.set x s) = some n') : n' = n := by
  obtain ⟨o,ho,h⟩ := Option.bind_eq_some_iff.mp h
  split at h
  · cases h
    have hkeep : o.2.keep s = o.2 := by
      cases s <;> first | rfl | cases hs
    rw [hkeep]
    exact Represents.set_self ho
  · cases h

end Names

def ServiceSettings.names (r : ServiceSettings DW DR) : NameSettings :=
  ⟨r.domainParticipant,r.serviceName⟩

def Settings.names : Settings DW DR → Kind × NameSettings
  | .service r => (.service,r.names)
  | .client r => (.client,r)
  | .server r => (.server,r.names)
  | .requester r => (.requester,r)
  | .replier r => (.replier,r)

def Records.names (v : Records DW DR) : Names := v.objects.map (Option.map Settings.names)

namespace Records

theorem object_names (v : Records DW DR) (x : Nat) :
    v.names.object x = (v.object x).map Settings.names := by
  simp only [names,Names.object,object,List.getElem?_map]
  cases v.objects[x]? with
  | none => rfl
  | some o => rfl

theorem names_add (v : Records DW DR) (r : Settings DW DR) :
    (v.add r).names = v.names ++ [some r.names] := by
  simp [names,add]

theorem names_put (v : Records DW DR) (x : Nat) (r : Settings DW DR) :
    (v.put x r).names = v.names.set x (some r.names) := by
  simp [names,put]

theorem kind_names (r : Settings DW DR) : r.names.1 = r.kind := by
  cases r <;> rfl

theorem names_set (r : Settings DW DR) (s : Setter DW DR) :
    (r.set s).map Settings.names =
      if r.names.1.allows s.ofClient then some (r.names.1,r.names.2.keep s) else none := by
  cases r <;> cases s <;> rfl

theorem isSome_get (r : Settings DW DR) (g : Getter) :
    (r.get g).isSome = r.names.1.allows g.ofClient := by
  cases r <;> cases g <;> rfl

theorem names_step (v : Records DW DR) (e : Op DW DR) :
    (v.step e).map names = v.names.step e := by
  cases e with
  | construct k =>
    cases k <;> simp [step,Names.step,names_add] <;> rfl
  | copy other =>
    simp only [step,Names.step,object_names,Option.map_map,Function.comp_def,names_add]
  | assign x that =>
    simp only [step,Names.step,object_names,Option.bind_eq_bind]
    cases v.object x with
    | none => rfl
    | some r =>
      cases v.object that with
      | none => rfl
      | some r' =>
        simp only [Option.map_some,Option.bind_some,kind_names]
        split
        · rw [Option.map_some,names_put]
        · rfl
  | set x s =>
    simp only [step,Names.step,object_names,Option.bind_eq_bind]
    cases v.object x with
    | none => rfl
    | some r =>
      have hset := congrArg (Option.map (fun o => v.names.set x (some o))) (names_set r s)
      simp only [Option.map_map,Function.comp_def] at hset
      simp only [Option.map_some,Option.bind_some,Option.map_map,Function.comp_def,names_put,hset]
      split <;> rfl
  | get x g =>
    simp only [step,Names.step,object_names,Option.bind_eq_bind]
    cases v.object x with
    | none => rfl
    | some r =>
      have hget := isSome_get r g
      simp only [Option.map_some,Option.bind_some,← hget]
      cases r.get g <;> rfl
  | putDefault x service_params =>
    simp only [step,Names.step,object_names,Option.bind_eq_bind]
    cases v.object x with
    | none => rfl
    | some r =>
      cases v.object service_params with
      | none => rfl
      | some r' =>
        cases r with
        | server r =>
          cases r' with
          | service r' => simp [Settings.putDefault,Settings.names,names_put]
          | client | server | requester | replier => simp [Settings.putDefault,Settings.names]
        | service | client | requester | replier => simp [Settings.putDefault,Settings.names]
  | takeDefault x =>
    simp only [step,Names.step,object_names,Option.bind_eq_bind]
    cases v.object x with
    | none => rfl
    | some r =>
      cases r with
      | server r => simp [Settings.takeDefault,Settings.names,names_add]
      | service | client | requester | replier => simp [Settings.takeDefault,Settings.names]
  | getDefault x g =>
    simp only [step,Names.step,object_names,Option.bind_eq_bind]
    cases v.object x with
    | none => rfl
    | some r =>
      cases r with
      | server r => simp [Settings.takeDefault,Settings.names,observe,names]
      | service | client | requester | replier => simp [Settings.takeDefault,Settings.names]
  | destroy x =>
    simp only [step,Names.step,object_names,Option.bind_eq_bind]
    cases v.object x with
    | none => rfl
    | some r => simp [names]

end Records

structure Store.Related {S S' : Type} (P : Store DW DR S) (P' : Store DW DR S')
    (R : S → S' → Prop) : Prop where
  step : ∀ {s s'}, R s s' → ∀ e, Option.Rel R (P.step s e) (P'.step s' e)
  domainParticipant : ∀ {s s'}, R s s' → ∀ x, P.domainParticipant s x = P'.domainParticipant s' x
  serviceName : ∀ {s s'}, R s s' → ∀ x, P.serviceName s x = P'.serviceName s' x
  kind : ∀ {s s'}, R s s' → ∀ x, P.kind s x = P'.kind s' x
  size : ∀ {s s'}, R s s' → P.size s = P'.size s'

def Named (w : World DW DR) (n : Names) : Prop := ∃ v, Represents w v ∧ v.names = n

theorem named_init : Named (World.init : World DW DR) [] := ⟨.init,represents_init,rfl⟩

theorem get_names {v : Records DW DR} {g : Getter} (hg : g.ofClient = true) (x : Nat) :
    (v.object x).bind (Settings.get · g) = v.names.get x g := by
  simp only [Names.get,Records.object_names]
  cases v.object x with
  | none => rfl
  | some r => cases r <;> cases g <;> first | rfl | cases hg

theorem named_related [Inhabited DW] [Inhabited DR] (A : MemoryAllocator DW DR) :
    Store.Related (World.store A) (Names.store DW DR) Named where
  step := by
    rintro w _ ⟨v,hw,rfl⟩ e
    change Option.Rel Named (World.step A w e) (v.names.step e)
    rw [← v.names_step e]
    have hstep : Option.Rel Represents (World.step A w e) (v.step e) := hw.step e
    generalize World.step A w e = o at hstep
    generalize v.step e = o' at hstep
    cases hstep with
    | none => exact .none
    | some hw' => exact .some ⟨_,hw',rfl⟩
  domainParticipant := by
    rintro w _ ⟨v,hw,rfl⟩ x
    simp only [Store.domainParticipant,World.store,Names.store,hw.get,
      get_names (g := .domainParticipant) rfl]
  serviceName := by
    rintro w _ ⟨v,hw,rfl⟩ x
    simp only [Store.serviceName,World.store,Names.store,hw.get,
      get_names (g := .serviceName) rfl]
  kind := by
    rintro w _ ⟨v,hw,rfl⟩ x
    simp only [World.store,Names.store,Records.object_names,Option.map_map]
    refine (hw.object x).map_eq (fun o r hx => ?_)
    obtain ⟨F,hrep,-⟩ := hx.owns
    exact hrep.kind.trans (Records.kind_names r).symm
  size := by
    rintro w _ ⟨v,hw,rfl⟩
    simp [World.store,Names.store,Records.names,hw.length]

variable {S S' : Type} {P : Store DW DR S} {P' : Store DW DR S'} {R : S → S' → Prop}

namespace Store.Related

theorem run (hP : P.Related P' R) {s : S} {s' : S'} (hs : R s s') (es : List (Op DW DR)) :
    Option.Rel R (P.run s es) (P'.run s' es) :=
  Machine.run_lockstep (C := ⟨P.step⟩) (A := ⟨P'.step⟩) hP.step hs es

theorem toParams (hP : P.Related P' R) {s : S} {s' : S'} (hs : R s s') (k : Kind) (x : Nat) :
    Option.Rel (fun a b => a.1 = b.1 ∧ R a.2 b.2) (P.toParams k s x) (P'.toParams k s' x) := by
  simp only [Store.toParams,hP.domainParticipant hs,hP.serviceName hs,hP.size hs]
  cases P'.domainParticipant s' x with
  | none => exact .none
  | some part =>
    cases P'.serviceName s' x with
    | none => exact .none
    | some service_name => exact (hP.run hs _).bind (fun _ _ h => .some ⟨rfl,h⟩)

end Store.Related
end Params

namespace Application
open Params
variable {DW DR S S' : Type} {P : Store DW DR S} {P' : Store DW DR S'} {R : S → S' → Prop}
  {w : Application S} {w' : Application S'}

structure Related (R : S → S' → Prop) (w : Application S) (w' : Application S') : Prop where
  params : R w.params w'.params
  default : w.default = w'.default
  participants : w.participants = w'.participants
  endpoints : w.endpoints = w'.endpoints

namespace Related

theorem withParams (hw : Related R w w') {s : S} {s' : S'} (hs : R s s') :
    Related R { w with params := s } { w' with params := s' } :=
  ⟨hs,hw.default,hw.participants,hw.endpoints⟩

theorem createParticipant (hw : Related R w w') (domainid : Int) :
    Related R (w.createParticipant domainid) (w'.createParticipant domainid) :=
  ⟨hw.params,hw.default,by simp [Application.createParticipant,hw.participants],hw.endpoints⟩

theorem get (hw : Related R w w') (created : Bool) :
    Related R (w.get created) (w'.get created) := by
  unfold Application.get
  rw [hw.default,hw.participants]
  split
  · exact hw
  · split
    · have hmade := hw.createParticipant w'.default.domainid
      exact ⟨hmade.params,by simp [hmade.default],hmade.participants,hmade.endpoints⟩
    · exact hw

theorem toConnextParams (hP : P.Related P' R) (hw : Related R w w') (role : Role) (x : Nat)
    (created : Bool) : Option.Rel (fun a b => a.1 = b.1 ∧ Related R a.2 b.2)
      (w.toConnextParams P role x created) (w'.toConnextParams P' role x created) := by
  simp only [Application.toConnextParams,hP.domainParticipant hw.params,
    hP.serviceName hw.params]
  cases P'.domainParticipant w'.params x with
  | none => exact .none
  | some part =>
    cases P'.serviceName w'.params x with
    | none => exact .none
    | some service_name =>
      cases part with
      | some p => exact .some ⟨rfl,hw⟩
      | none =>
        have hget := hw.get created
        exact .some ⟨by rw [hget.default],hget⟩

theorem construct (hP : P.Related P' R) (hw : Related R w w') (role : Role) (x : Nat)
    (c : Connected) :
    Option.Rel (Related R) (w.construct P role x c) (w'.construct P' role x c) := by
  refine (hw.toConnextParams hP role x c.created).bind ?_
  rintro ⟨endpoint,u⟩ ⟨endpoint',u'⟩ ⟨rfl,hu⟩
  change Related R u u' at hu
  cases c.accepted with
  | false => exact .some hu
  | true => exact .some ⟨hu.params,hu.default,hu.participants,by simp [hu.endpoints]⟩

theorem clientImpl (hP : P.Related P' R) (hw : Related R w w') (params_ : Nat)
    (c : Connected) :
    Option.Rel (Related R) (w.clientImpl P params_ c) (w'.clientImpl P' params_ c) := by
  refine (hP.toParams hw.params .requester params_).bind ?_
  rintro ⟨temp,s⟩ ⟨temp',s'⟩ ⟨rfl,hs⟩
  refine ((hw.withParams hs).construct hP .requester temp c).bind (fun u u' hu => ?_)
  exact (hP.run hu.params _).bind (fun _ _ hs => .some (hu.withParams hs))

theorem dispatcher (hP : P.Related P' R) (hw : Related R w w') (x : Nat) (c : Connected) :
    Option.Rel (Related R) (w.dispatcher P x c) (w'.dispatcher P' x c) := by
  refine (hP.toParams hw.params .replier x).bind ?_
  rintro ⟨temp,s⟩ ⟨temp',s'⟩ ⟨rfl,hs⟩
  refine ((hw.withParams hs).construct hP .replier temp c).bind (fun u u' hu => ?_)
  exact (hP.run hu.params _).bind (fun _ _ hs => .some (hu.withParams hs))

theorem ofKind (hP : P.Related P' R) (hw : Related R w w') (x : Nat) (k : Kind)
    {next : Option (Application S)} {next' : Option (Application S')}
    (hn : Option.Rel (Related R) next next') :
    Option.Rel (Related R) (w.ofKind P x k next) (w'.ofKind P' x k next') := by
  simp only [Application.ofKind,hP.kind hw.params]
  split
  · exact hn
  · exact .none

theorem step (hP : P.Related P' R) (hw : Related R w w') (e : Event DW DR) :
    Option.Rel (Related R) ((machine P).step w e) ((machine P').step w' e) := by
  cases e with
  | params e => exact (hP.step hw.params e).bind (fun _ _ hs => .some (hw.withParams hs))
  | setDomainid domainid =>
    exact .some ⟨hw.params,by simp [setDomainid,hw.default],hw.participants,hw.endpoints⟩
  | get created | server created => exact .some (hw.get created)
  | createParticipant domainid => exact .some (hw.createParticipant domainid)
  | requester x c => exact hw.ofKind hP x .requester (hw.construct hP .requester x c)
  | replier x c => exact hw.ofKind hP x .replier (hw.construct hP .replier x c)
  | client x c =>
    refine hw.ofKind hP x .client ?_
    rw [hP.size hw.params]
    exact (hP.run hw.params _).bind (fun _ _ hs => (hw.withParams hs).clientImpl hP _ c)
  | defaultClient c =>
    simp only [machine,Application.step,hP.size hw.params]
    exact (hP.run hw.params _).bind (fun _ _ hs => (hw.withParams hs).clientImpl hP _ c)
  | service x c => exact hw.ofKind hP x .service (hw.dispatcher hP x c)

end Related

def Event.named : Event DW DR → Bool
  | .params (.set _ s) => s.ofClient
  | _ => true

theorem step_other {w v : Application Names} {e : Event DW DR} (he : e.named = false)
    (h : (machine (Names.store DW DR)).step w e = some v) : v = w := by
  cases e with
  | params e =>
    obtain ⟨s,hs,h⟩ := Option.bind_eq_some_iff.mp h
    cases h
    cases e with
    | set x s => rw [Names.step_set_other he hs]
    | construct | copy | assign | get | putDefault | takeDefault | getDefault | destroy => cases he
  | setDomainid | get | createParticipant | requester | replier | client | defaultClient
    | service | server => cases he

/-- Endpoints are made as if the parameter objects held a participant and a service name
alone; a program that leaves all the other setters out has the same ones. -/
theorem endpoints_asNames [Inhabited DW] [Inhabited DR] (A : MemoryAllocator DW DR)
    (es : List (Event DW DR)) :
    ((machine (World.store A)).run (init .init) es).map endpoints =
      ((machine (Names.store DW DR)).run (init []) es).map endpoints ∧
    ∀ w, (machine (World.store A)).run (init .init) es = some w →
      ∃ w', (machine (World.store A)).run (init .init) (es.filter Event.named) = some w' ∧
        w'.endpoints = w.endpoints ∧ w'.participants = w.participants := by
  have hrun : ∀ es : List (Event DW DR), Option.Rel (Related Named)
      ((machine (World.store A)).run (init .init) es)
      ((machine (Names.store DW DR)).run (init []) es) :=
    fun es => Machine.run_lockstep (fun hw e => hw.step (named_related A) e)
      ⟨named_init,rfl,rfl,rfl⟩ es
  refine ⟨(hrun es).map_eq (fun _ _ hw => hw.endpoints),fun w h => ?_⟩
  obtain ⟨n,hn,hw⟩ := (h ▸ hrun es).exists_right
  have hfilter := hrun (es.filter Event.named)
  rw [Machine.run_filter step_other hn] at hfilter
  generalize hw' : (machine (World.store A)).run (init .init) (es.filter Event.named) = o
    at hfilter
  cases hfilter with
  | some hsame =>
    exact ⟨_,rfl,hsame.endpoints.trans hw.endpoints.symm,
      hsame.participants.trans hw.participants.symm⟩

theorem endpoints_asNames_rock : ∃ w w' : Application (World Nat Nat),
    (machine (World.store .above)).run (init .init) [.params (.construct .service),
      .params (.set 0 (.serviceName "RobotControl")),
      .params (.set 0 (.instanceName "Rock")),.service 0 ⟨true,true⟩] = some w ∧
    (machine (World.store .above)).run (init .init) [.params (.construct .service),
      .params (.set 0 (.serviceName "RobotControl")),.service 0 ⟨true,true⟩] = some w' ∧
    w.endpoints = [⟨.replier,none,some 0,"RobotControl"⟩] ∧ w'.endpoints = w.endpoints := by
  obtain ⟨w',hrun,hsame,-⟩ := (endpoints_asNames (.above : MemoryAllocator Nat Nat)
    [.params (.construct .service),.params (.set 0 (.serviceName "RobotControl")),
      .params (.set 0 (.instanceName "Rock")),.service 0 ⟨true,true⟩]).2 _ rfl
  exact ⟨_,w',rfl,hrun,rfl,hsame⟩

end Application
end DdsRpc
