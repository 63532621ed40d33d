import IOSDeviceManager.Resigning.RankedProfiles
import IOSDeviceManager.Resigning.IdentitySelection
import IOSDeviceManager.Resigning.EntitlementGrowth
import IOSDeviceManager.Resigning.ApplicationIdentifier
import IOSDeviceManager.Resigning.AutoDetectedProfile
import IOSDeviceManager.Resigning.AppGroups
import IOSDeviceManager.Resigning.ResignAll
import IOSDeviceManager.Resigning.SigningFuel
import IOSDeviceManager.Resigning.SigningOrder
import IOSDeviceManager.Commands.ArgumentOrder
import IOSDeviceManager.Commands.RedundantArguments
import IOSDeviceManager.Commands.Process
import IOSDeviceManager.Commands.ResignAllCommand
import IOSDeviceManager.Devices.SimulatorUpload
import IOSDeviceManager.Devices.SimulatorObservations
import IOSDeviceManager.Devices.SimulatorInstalling
import IOSDeviceManager.Resigning.Fingerprint
import IOSDeviceManager.Commands.AppInfo
import IOSDeviceManager.Utilities.BundleSkeleton
import IOSDeviceManager.Commands.DroppedStatus
import IOSDeviceManager.Commands.InstallMaterial
import IOSDeviceManager.Utilities.GeneratedConfiguration
import IOSDeviceManager.Utilities.DirectoryTraversal
import IOSDeviceManager.Utilities.PathExpansion
import IOSDeviceManager.Devices.DeviceIdentifier
import IOSDeviceManager.Devices.SimulatorAlias
import IOSDeviceManager.Devices.SimulatorFileUpload
import IOSDeviceManager.Resigning.SignedOnce
import IOSDeviceManager.Resigning.ResourceInjection
import IOSDeviceManager.Commands.BundleIdentifier
import IOSDeviceManager.Devices.TestRunner
import IOSDeviceManager.Commands.XCTestConfigReadWrite
import IOSDeviceManager.Devices.SimulatorSigning
import IOSDeviceManager.Devices.UninstallOrder
import IOSDeviceManager.Devices.InstalledResources
import IOSDeviceManager.General.InteractionHandler
import IOSDeviceManager.Devices.SimulatorMethods
import IOSDeviceManager.Devices.DeviceEffects
import IOSDeviceManager.Commands.Program
import IOSDeviceManager.Commands.CommandEffects
import IOSDeviceManager.Commands.ClearAppData
import IOSDeviceManager.Commands.ResignCommand
import IOSDeviceManager.Resigning.ProfileCollection
import IOSDeviceManager.Resigning.RepeatedResigning
import IOSDeviceManager.Utilities.AppArchive
import IOSDeviceManager.Devices.DefaultSimulator
import IOSDeviceManager.Devices.PhysicalDeviceFileUpload
import IOSDeviceManager.Devices.SimulatorStaging
import IOSDeviceManager.Devices.PhysicalDeviceStaging
import IOSDeviceManager.Devices.SimulatorOutcomes
import IOSDeviceManager.Devices.AppDataTransfers
