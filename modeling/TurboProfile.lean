import TurboProfile.Model.Wire
import TurboProfile.Model.Unknown
import TurboProfile.Model.Message
import TurboProfile.Model.Payloads
import TurboProfile.Model.ProfileDTO
import TurboProfile.Model.Getters
import TurboProfile.Verification.Wire.RoundTrip
import TurboProfile.Verification.Wire.Skip
import TurboProfile.Verification.Wire.Append
import TurboProfile.Verification.Wire.Fields
import TurboProfile.Verification.Message.Coder
import TurboProfile.Verification.Message.RoundTrip
import TurboProfile.Verification.Message.Merge
import TurboProfile.Verification.Message.Fields
import TurboProfile.Verification.Message.Decode
import TurboProfile.Verification.Message.Stable
import TurboProfile.Verification.Message.Errors
import TurboProfile.Verification.Payloads
import TurboProfile.Verification.Oneof.Codec
import TurboProfile.Verification.Oneof.LastWriter
import TurboProfile.Verification.Entity.RoundTrip
import TurboProfile.Verification.Entity.Merge
import TurboProfile.Verification.Entity.Fields
import TurboProfile.Verification.Entity.Errors
import TurboProfile.Verification.Entity.Presence
import TurboProfile.Verification.Entity.Decode
import TurboProfile.Verification.Entity.Stable
