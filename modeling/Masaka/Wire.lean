import Masaka.Handlers

/-!
The wire format of both versions, as far as clients send it. It takes the place of
the encoder of `mqtt_proto` wherever a run is computed.
-/
namespace Masaka.Wire

def u16 (n : Nat) : Bytes := [UInt8.ofNat (n / 256), UInt8.ofNat n]
def u32 (n : Nat) : Bytes := u16 (n / 65536) ++ u16 n
def binary (bytes : Bytes) : Bytes := u16 bytes.length ++ bytes
def string (s : String) : Bytes := binary s.toUTF8.data.toList
/-- A variable byte integer: seven bits a byte, at most four bytes. -/
def varint (n : Nat) : Bytes := go 4 n
where
  go : Nat → Nat → Bytes
    | 0, _ => []
    | fuel + 1, n => if n < 128 then [UInt8.ofNat n] else UInt8.ofNat (n % 128 + 128) :: go fuel (n / 128)
def optional {α : Type} (encode : α → Bytes) (value : Option α) : Bytes := (value.map encode).getD []
def flag (bit : Nat) (set : Bool) : Nat := if set then bit else 0
def level : QoS → Nat
  | .Level0 => 0
  | .Level1 => 1
  | .Level2 => 2
def frame (header : Nat) (body : Bytes) : VarBytes := UInt8.ofNat header :: varint body.length ++ body
def ack (header : Nat) (pid : Pid) : VarBytes := frame header (u16 pid.value)
def publish_header (dup : Bool) (qos : QoS) (retain : Bool) : Nat := 0x30 + flag 8 dup + 2 * level qos + flag 1 retain
def connect_flags (username password will clean : Bool) (will_qos : QoS) (will_retain : Bool) : Nat :=
  flag 0x80 username + flag 0x40 password + flag 0x20 will_retain + 8 * level will_qos + flag 4 will + flag 2 clean

def v3 : V3.Packet → VarBytes
  | .Connect connect =>
    let will := connect.last_will
    frame 0x10 (string "MQTT" ++ [4, UInt8.ofNat (connect_flags connect.username.isSome connect.password.isSome will.isSome
        connect.clean_session ((will.map (·.qos)).getD .Level0) ((will.map (·.retain)).getD false))] ++
      u16 connect.keep_alive.toNat ++ string connect.client_id ++
      optional (fun will => string will.topic_name ++ binary will.message) will ++
      optional string connect.username ++ optional binary connect.password)
  | .Connack connack => frame 0x20 [UInt8.ofNat (flag 1 connack.session_present), connack.code]
  | .Publish publish =>
    frame (publish_header publish.dup publish.qos_pid.qos publish.retain)
      (string publish.topic_name ++ optional (fun pid => u16 pid.value) publish.qos_pid.pid ++ publish.payload)
  | .Puback pid => ack 0x40 pid
  | .Pubrec pid => ack 0x50 pid
  | .Pubrel pid => ack 0x62 pid
  | .Pubcomp pid => ack 0x70 pid
  | .Subscribe subscribe =>
    frame 0x82 (u16 subscribe.pid.value ++
      subscribe.topics.flatMap fun (filter, qos) => string filter ++ [UInt8.ofNat (level qos)])
  | .Suback suback => frame 0x90 (u16 suback.pid.value ++ suback.topics)
  | .Unsubscribe unsubscribe => frame 0xA2 (u16 unsubscribe.pid.value ++ unsubscribe.topics.flatMap string)
  | .Unsuback pid => ack 0xB0 pid
  | .Pingreq => frame 0xC0 []
  | .Pingresp => frame 0xD0 []
  | .Disconnect => frame 0xE0 []

/-- A property, if it is there. -/
def property {α : Type} (id : Nat) (encode : α → Bytes) : Option α → Bytes :=
  optional fun value => UInt8.ofNat id :: encode value
def properties (encoded : List Bytes) : Bytes := varint encoded.flatten.length ++ encoded.flatten
def user_properties (properties : List V5.UserProperty) : Bytes :=
  properties.flatMap fun property => 0x26 :: string property.name ++ string property.value
def byte (set : Bool) : Bytes := [UInt8.ofNat (flag 1 set)]

/-- Reason codes are those of success, which are left out of acknowledgments. -/
def v5 : V5.Packet → VarBytes
  | .Connect connect =>
    let will := connect.last_will
    let p := connect.properties
    frame 0x10 (string "MQTT" ++ [5, UInt8.ofNat (connect_flags connect.username.isSome connect.password.isSome will.isSome
        connect.clean_start ((will.map (·.qos)).getD .Level0) ((will.map (·.retain)).getD false))] ++
      u16 connect.keep_alive.toNat ++
      properties [property 0x11 (fun n => u32 n.toNat) p.session_expiry_interval,
        property 0x21 (fun n => u16 n.toNat) p.receive_max, property 0x27 (fun n => u32 n.toNat) p.max_packet_size,
        property 0x22 (fun n => u16 n.toNat) p.topic_alias_max, property 0x19 byte p.request_response_info,
        property 0x17 byte p.request_problem_info, user_properties p.user_properties,
        property 0x15 string p.auth_method, property 0x16 binary p.auth_data] ++
      string connect.client_id ++
      optional (fun will => properties [] ++ string will.topic_name ++ binary will.payload) will ++
      optional string connect.username ++ optional binary connect.password)
  | .Connack connack =>
    frame 0x20 (UInt8.ofNat (flag 1 connack.session_present) :: connack.reason_code :: properties [])
  | .Publish publish =>
    let p := publish.properties
    frame (publish_header publish.dup publish.qos_pid.qos publish.retain)
      (string publish.topic_name ++ optional (fun pid => u16 pid.value) publish.qos_pid.pid ++
        properties [property 0x01 byte p.payload_is_utf8, property 0x02 (fun n => u32 n.toNat) p.message_expiry_interval,
          property 0x23 (fun n => u16 n.toNat) p.topic_alias, property 0x08 string p.response_topic,
          property 0x09 binary p.correlation_data, p.subscription_ids.flatMap fun id => 0x0B :: varint id.toNat,
          property 0x03 string p.content_type, user_properties p.user_properties] ++
        publish.payload)
  | .Puback reply => ack 0x40 reply.pid
  | .Pubrec reply => ack 0x50 reply.pid
  | .Pubrel reply => ack 0x62 reply.pid
  | .Pubcomp reply => ack 0x70 reply.pid
  | .Subscribe subscribe =>
    frame 0x82 (u16 subscribe.pid.value ++
      properties [property 0x0B (fun id => varint id.toNat) subscribe.properties.subscription_id,
        user_properties subscribe.properties.user_properties] ++
      subscribe.topics.flatMap fun (filter, options) => string filter ++ [UInt8.ofNat (flag 8 true + level options.max_qos)])
  | .Suback suback => frame 0x90 (u16 suback.pid.value ++ properties [] ++ suback.topics)
  | .Unsubscribe unsubscribe =>
    frame 0xA2 (u16 unsubscribe.pid.value ++ properties [] ++ unsubscribe.topics.flatMap string)
  | .Unsuback unsuback => frame 0xB0 (u16 unsuback.pid.value ++ properties [] ++ unsuback.topics)
  | .Pingreq => frame 0xC0 []
  | .Pingresp => frame 0xD0 []
  | .Disconnect _ => frame 0xE0 []
  | .Auth _ => frame 0xF0 []

abbrev v3Codec : Codec V3.Packet MqttProtoError := ⟨fun packet => .ok (v3 packet)⟩
abbrev v5Codec : Codec V5.Packet ErrorV5 := ⟨fun packet => .ok (v5 packet)⟩

example : v3 (.Publish ⟨true, .Level1 .default, false, "a/b", [7]⟩) = [0x3A, 8, 0, 3, 97, 47, 98, 0, 1, 7] := by decide

end Masaka.Wire
