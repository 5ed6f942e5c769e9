import DdsRpc.Params
set_option autoImplicit false

namespace DdsRpc
namespace Params
variable {DW DR : Type}

structure ServiceSettings (DW DR : Type) where
  domainParticipant : Option Nat
  publisher : Option Nat
  subscriber : Option Nat
  datawriterQos : Option DW
  datareaderQos : Option DR
  serviceName : String
  instanceName : String
  requestTopicName : String
  replyTopicName : String

namespace ServiceSettings

def unset : ServiceSettings DW DR := ⟨none,none,none,none,none,"","","",""⟩

def set (r : ServiceSettings DW DR) : Setter DW DR → ServiceSettings DW DR
  | .serviceName v => { r with serviceName := v }
  | .instanceName v => { r with instanceName := v }
  | .datawriterQos v => { r with datawriterQos := some v }
  | .datareaderQos v => { r with datareaderQos := some v }
  | .publisher v => { r with publisher := v }
  | .subscriber v => { r with subscriber := v }
  | .domainParticipant v => { r with domainParticipant := v }

def get (r : ServiceSettings DW DR) : Getter → Value DW DR
  | .serviceName => .name r.serviceName
  | .instanceName => .name r.instanceName
  | .requestTopicName => .name r.requestTopicName
  | .replyTopicName => .name r.replyTopicName
  | .datawriterQos => .datawriterQos r.datawriterQos
  | .datareaderQos => .datareaderQos r.datareaderQos
  | .publisher => .entity r.publisher
  | .subscriber => .entity r.subscriber
  | .domainParticipant => .entity r.domainParticipant

end ServiceSettings

structure NameSettings where
  domainParticipant : Option Nat
  serviceName : String

namespace NameSettings

def unset : NameSettings := ⟨none,""⟩

def set (r : NameSettings) : Setter DW DR → Option NameSettings
  | .serviceName v => some { r with serviceName := v }
  | .domainParticipant v => some { r with domainParticipant := v }
  | _ => none

def get (r : NameSettings) : Getter → Option (Value DW DR)
  | .serviceName => some (.name r.serviceName)
  | .domainParticipant => some (.entity r.domainParticipant)
  | _ => none

end NameSettings

inductive Settings (DW DR : Type) where
  | service (r : ServiceSettings DW DR)
  | client (r : NameSettings)
  | server (defaults : ServiceSettings DW DR)
  | requester (r : NameSettings)
  | replier (r : NameSettings)

namespace Settings

def unset : Kind → Settings DW DR
  | .service => .service .unset
  | .client => .client .unset
  | .server => .server .unset
  | .requester => .requester .unset
  | .replier => .replier .unset

def kind : Settings DW DR → Kind
  | .service _ => .service
  | .client _ => .client
  | .server _ => .server
  | .requester _ => .requester
  | .replier _ => .replier

def set (r : Settings DW DR) (s : Setter DW DR) : Option (Settings DW DR) :=
  match r with
  | .service r => some (.service (r.set s))
  | .client r => (r.set s).map .client
  | .server _ => none
  | .requester r => (r.set s).map .requester
  | .replier r => (r.set s).map .replier

def get (r : Settings DW DR) (g : Getter) : Option (Value DW DR) :=
  match r with
  | .service r => some (r.get g)
  | .server _ => none
  | .client r | .requester r | .replier r => r.get g

def putDefault : Settings DW DR → Settings DW DR → Option (Settings DW DR)
  | .server _,.service r => some (.server r)
  | _,_ => none

def takeDefault : Settings DW DR → Option (ServiceSettings DW DR)
  | .server r => some r
  | _ => none

end Settings

structure Records (DW DR : Type) where
  objects : List (Option (Settings DW DR))
  observed : List (Value DW DR)

namespace Records

def init : Records DW DR := ⟨[],[]⟩

def object (w : Records DW DR) (x : Nat) : Option (Settings DW DR) := w.objects[x]?.join

def add (w : Records DW DR) (r : Settings DW DR) : Records DW DR :=
  { w with objects := w.objects ++ [some r] }

def put (w : Records DW DR) (x : Nat) (r : Settings DW DR) : Records DW DR :=
  { w with objects := w.objects.set x (some r) }

def observe (w : Records DW DR) (v : Value DW DR) : Records DW DR :=
  { w with observed := w.observed ++ [v] }

def step (w : Records DW DR) : Op DW DR → Option (Records DW DR)
  | .construct k => some (w.add (.unset k))
  | .copy other => (w.object other).map w.add
  | .assign x that => do
    let r ← w.object x
    let r' ← w.object that
    if r.kind = r'.kind then some (w.put x r') else none
  | .set x s => do
    let r ← w.object x
    (r.set s).map (w.put x)
  | .get x g => do
    let r ← w.object x
    (r.get g).map w.observe
  | .putDefault x service_params => do
    let r ← w.object x
    let r' ← w.object service_params
    (r.putDefault r').map (w.put x)
  | .takeDefault x => do
    let r ← w.object x
    r.takeDefault.map (fun s => w.add (.service s))
  | .getDefault x g => do
    let r ← w.object x
    r.takeDefault.map (fun s => w.observe (s.get g))
  | .destroy x => do
    let _ ← w.object x
    some { w with objects := w.objects.set x none }

def machine (DW DR : Type) : Machine (Records DW DR) (Op DW DR) := ⟨step⟩

end Records

def ServiceParamsImpl.settings (impl : ServiceParamsImpl DW DR) : ServiceSettings DW DR where
  domainParticipant := impl.participant
  publisher := impl.publisher
  subscriber := impl.subscriber
  datawriterQos := if impl.dwqosDef then some impl.dwqos else none
  datareaderQos := if impl.drqosDef then some impl.drqos else none
  serviceName := impl.serviceName
  instanceName := impl.instanceName
  requestTopicName := impl.requestTopicName
  replyTopicName := impl.replyTopicName

def ServiceParamsImpl.nameSettings (impl : ServiceParamsImpl DW DR) : NameSettings :=
  ⟨impl.participant,impl.serviceName⟩

def RequesterParamsImpl.settings (impl : RequesterParamsImpl) : NameSettings :=
  ⟨impl.participant,impl.serviceName⟩

namespace ServiceParamsImpl

theorem settings_set (impl : ServiceParamsImpl DW DR) (s : Setter DW DR) :
    (impl.set s).settings = impl.settings.set s := by
  cases s <;> rfl

theorem settings_get (impl : ServiceParamsImpl DW DR) (g : Getter) :
    impl.settings.get g = impl.get g := by
  cases g <;> rfl

theorem nameSettings_set (impl : ServiceParamsImpl DW DR) (s : Setter DW DR) :
    impl.nameSettings.set s =
      if s.ofClient then some (impl.set s).nameSettings else none := by
  cases s <;> rfl

theorem nameSettings_get (impl : ServiceParamsImpl DW DR) (g : Getter) :
    impl.nameSettings.get g = if g.ofClient then some (impl.get g) else none := by
  cases g <;> rfl

end ServiceParamsImpl

namespace RequesterParamsImpl

theorem settings_set (impl : RequesterParamsImpl) (s : Setter DW DR) :
    impl.settings.set s = (impl.set s).map settings := by
  cases s <;> rfl

theorem settings_get (impl : RequesterParamsImpl) (g : Getter) :
    (impl.settings.get g : Option (Value DW DR)) = impl.get g := by
  cases g <;> rfl

end RequesterParamsImpl

def Impl.settings : Impl DW DR → Option (Settings DW DR)
  | .service impl => some (.service impl.settings)
  | .client impl => some (.client impl.nameSettings)
  | .server _ => none
  | .requester impl => some (.requester impl.settings)
  | .replier impl => some (.replier impl.settings)

theorem Impl.settings_set {i : Impl DW DR} {r : Settings DW DR} (h : i.settings = some r)
    (s : Setter DW DR) :
    Option.Rel (fun i' r' => i'.settings = some r' ∧ r'.kind = r.kind) (i.set s) (r.set s) := by
  cases i with
  | server => cases h
  | service impl =>
    cases h
    exact .some ⟨by simp [settings,ServiceParamsImpl.settings_set],rfl⟩
  | client impl =>
    cases h
    simp only [set,Settings.set,ServiceParamsImpl.nameSettings_set]
    cases s.ofClient
    · exact .none
    · exact .some ⟨rfl,rfl⟩
  | requester impl =>
    cases h
    simp only [set,Settings.set,RequesterParamsImpl.settings_set]
    cases impl.set s
    · exact .none
    · exact .some ⟨rfl,rfl⟩
  | replier impl =>
    cases h
    simp only [set,Settings.set,RequesterParamsImpl.settings_set]
    cases RequesterParamsImpl.set impl s
    · exact .none
    · exact .some ⟨rfl,rfl⟩

theorem Impl.settings_get {i : Impl DW DR} {r : Settings DW DR} (h : i.settings = some r)
    (g : Getter) : i.get g = r.get g := by
  cases i with
  | server => cases h
  | service impl =>
    cases h
    exact congrArg some (impl.settings_get g).symm
  | client impl =>
    cases h
    exact (impl.nameSettings_get g).symm
  | requester impl =>
    cases h
    exact (impl.settings_get g).symm
  | replier impl =>
    cases h
    exact (RequesterParamsImpl.settings_get impl g).symm

end Params
end DdsRpc
